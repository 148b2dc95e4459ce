import Fleet.Yaml.Cursor
import Fleet.Json.Reader

/-!
# Scalars of YAML

A scalar is written plain, in one of two kinds of quotes, or as a block of
lines. In all but the literal block an end of a line between two lines of text
is read as a space, and of several the first is dropped.

## Main definitions

* `Style`: How a scalar is written.
* `quoted`, `plain`, `block`: Reading a scalar, with the place after it.
-/

namespace Fleet.Yaml

/-- How a scalar is written. -/
inductive Style
  | plain
  | singleQuoted
  | doubleQuoted
  | literal
  | folded
  deriving DecidableEq

/-! ### Quoted scalars -/

/-- A character after a backslash that stands for one other. -/
def simpleEscape? : Char → Option Char
  | '0' => some '\x00'
  | 'a' => some '\x07'
  | 'b' => some '\x08'
  | 't' | '\t' => some '\t'
  | 'n' => some '\n'
  | 'v' => some '\x0B'
  | 'f' => some '\x0C'
  | 'r' => some '\r'
  | 'e' => some '\x1B'
  | ' ' => some ' '
  | '"' => some '"'
  | '/' => some '/'
  | '\\' => some '\\'
  | 'N' => some '\x85'
  | '_' => some '\xA0'
  | 'L' => some '\u2028'
  | 'P' => some '\u2029'
  | _ => none

/-- How many hexadecimal digits follow the letter of an escape. -/
def codeLength : Char → Nat
  | 'x' => 2
  | 'u' => 4
  | 'U' => 8
  | _ => 0

/-- The number that hexadecimal digits write. -/
def hexNumber? (digits : List Char) : Option Nat :=
  digits.foldlM (fun n c => (Json.hexDigit? c).map (n * 16 + ·)) 0

/-- The character an escape stands for, after its backslash, and the place after it. -/
def escape? (c : Cursor) : Option (Char × Cursor) :=
  match simpleEscape? c.head with
  | some x => some (x, c.skip 1)
  | none => do
    let length := codeLength c.head
    let digits := (c.skip 1).rest.take length
    if length = 0 ∨ digits.length < length then none
    let code ← hexNumber? digits
    if (0xD800 ≤ code ∧ code < 0xE000) ∨ 0x10FFFF < code then none
    return (Char.ofNat code, c.skip (1 + length))

/-- What a stretch of a quoted scalar ends with. -/
inductive StretchEnd
  -- White space, or the closing quote.
  | gap
  -- A backslash at the end of a line, which joins it to the next.
  | joined

/-- Reads a stretch without white space; `text` is the scalar so far, backwards. -/
def stretch (single : Bool) : Nat → List Char → Cursor → Option (List Char × StretchEnd × Cursor)
  | 0, _, _ => none
  | turns + 1, text, c =>
    if isGap c.head then some (text, .gap, c)
    else if single then
      if c.head == '\'' then
        if c.peek 1 == '\'' then stretch single turns ('\'' :: text) (c.skip 2)
        else some (text, .gap, c)
      else stretch single turns (c.head :: text) (c.skip 1)
    else if c.head == '"' then some (text, .gap, c)
    else if c.head == '\\' then
      if isBreak (c.peek 1) then some (text, .joined, (c.skip 1).skipBreak)
      else (escape? (c.skip 1)).bind fun (x, c) => stretch single turns (x :: text) c
    else stretch single turns (c.head :: text) (c.skip 1)

/-- Reads a quoted scalar after its opening quote. Each turn takes a character at least, so those
    left suffice for what is left of the text. -/
def quotedBody (single : Bool) : Nat → List Char → Cursor → Option (List Char × Cursor)
  | 0, _, _ => none
  | turns + 1, text, c => do
    if c.atDocumentEdge ∨ isEnd c.head then none
    let (text, reason, c) ← stretch single (turns + 1) text c
    let (gap, c) ←
      match reason with
      | .joined => Gap.take 0 (turns + 1) { Gap.none with broken := true } c
      | .gap =>
        if c.head == (if single then '\'' else '"') then return (text.reverse, c.skip 1)
        Gap.take 0 (turns + 1) .none c
    quotedBody single turns (gap.folded ++ text) c

/-- Reads a quoted scalar at its opening quote. -/
def quoted (single : Bool) (c : Cursor) : Option (List Char × Cursor) :=
  quotedBody single (c.rest.length + 1) [] (c.skip 1)

/-! ### Plain scalars -/

/-- A mark of a collection in brackets or braces. -/
def isFlowMark (c : Char) : Bool := c == ',' || c == '[' || c == ']' || c == '{' || c == '}'

/-- Whether a plain scalar ends here, before a gap. -/
def endsPlain (inFlow : Bool) (c : Cursor) : Bool :=
  (c.head == ':' && isGap (c.peek 1)) || (inFlow && isFlowMark c.head)

/-- A colon in brackets or braces that is neither part of a word nor followed by a gap. -/
def isStrayColon (inFlow : Bool) (c : Cursor) : Bool :=
  inFlow && c.head == ':' && (isFlowMark (c.peek 1) || c.peek 1 == '?')

/-- Reads a word of a plain scalar; `word` is the word so far, backwards. -/
def plainWord (inFlow : Bool) : Nat → List Char → Cursor → Option (List Char × Cursor)
  | 0, _, _ => none
  | turns + 1, word, c =>
    if isGap c.head then some (word, c)
    else if isStrayColon inFlow c then none
    else if endsPlain inFlow c then some (word, c)
    else plainWord inFlow turns (c.head :: word) (c.skip 1)

/-- Reads words of a plain scalar; `text` is the scalar so far, backwards, and `gap` what stands
    between it and this place. It ends with whether the scalar was followed by the end of a
    line. Each turn takes a character at least, so those left suffice for what is left of the
    text. -/
def plainWords (inFlow : Bool) (indent : Nat) :
    Nat → List Char → Gap → Cursor → Option (List Char × Bool × Cursor)
  | 0, _, _, _ => none
  | turns + 1, text, gap, c =>
    if c.atDocumentEdge ∨ c.head = '#' then some (text.reverse, gap.broken, c)
    else do
      let (word, c) ← plainWord inFlow (turns + 1) [] c
      let joined := if word.isEmpty then text else word ++ gap.folded ++ text
      let gap := if word.isEmpty then gap else .none
      if !(isBlank c.head || isBreak c.head) then return (joined.reverse, gap.broken, c)
      let (gap, c) ← Gap.take indent (turns + 1) gap c
      if !inFlow ∧ c.column < indent then return (joined.reverse, gap.broken, c)
      plainWords inFlow indent turns joined gap c

/-- Reads a plain scalar, with whether the end of a line follows it. -/
def plain (inFlow : Bool) (indent : Nat) (c : Cursor) : Option (List Char × Bool × Cursor) :=
  plainWords inFlow indent (c.rest.length + 1) [] .none c

/-! ### Blocks -/

/-- What becomes of the ends of lines at the end of a block. -/
inductive Chomping
  -- All are dropped.
  | strip
  -- One is kept.
  | clip
  -- All are kept.
  | keep
  deriving DecidableEq

/-- Reads a chomping mark. -/
def chomping? : Char → Option Chomping
  | '+' => some .keep
  | '-' => some .strip
  | _ => none

/-- Reads an indentation mark, a digit other than zero; nothing if there is none. -/
def indentMark? (c : Cursor) : Option (Nat × Cursor) :=
  if c.head.isDigit then
    if c.head == '0' then none else some (c.head.toNat - '0'.toNat, c.skip 1)
  else some (0, c)

/-- Reads the marks of a block, in either order. -/
def blockMarks? (c : Cursor) : Option (Chomping × Nat × Cursor) :=
  match chomping? c.head with
  | some chomping => (indentMark? (c.skip 1)).map fun (increment, c) => (chomping, increment, c)
  | none => do
    let (increment, c) ← indentMark? c
    if increment = 0 then return (.clip, 0, c)
    match chomping? c.head with
    | some chomping => return (chomping, increment, c.skip 1)
    | none => return (.clip, increment, c)

/-- Passes blanks and a comment up to the end of the line; refuses anything else. -/
def skipToBreak? (c : Cursor) : Option Cursor :=
  let c := c.skipWhile isBlank
  let c := if c.head == '#' then c.skipWhile (!isBreakOrEnd ·) else c
  if isBreakOrEnd c.head then some c.skipBreak else none

/-- Takes empty lines and the indentation of the line after them: the deepest indentation met,
    the ends of lines, backwards, and the place. An indentation of zero is one still to be found
    out. -/
def blockBreaks (indent : Nat) :
    Nat → Nat → List Char → Cursor → Option (Nat × List Char × Cursor)
  | 0, _, _, _ => none
  | turns + 1, deepest, breaks, c =>
    let spaces := (c.rest.takeWhile (· == ' ')).length
    let c := c.skip (if indent = 0 then spaces else min spaces (indent - c.column))
    let deepest := max deepest c.column
    if (indent = 0 ∨ c.column < indent) ∧ c.head = '\t' then none
    else if isBreak c.head then
      let (lineEnd, c) := c.takeBreak
      blockBreaks indent turns deepest (lineEnd ++ breaks) c
    else some (deepest, breaks, c)

/-- A block on its way. -/
structure BlockText where
  -- The text so far, backwards.
  text : List Char
  -- The end of the last line.
  lineEnd : List Char
  -- The ends of the empty lines after it, backwards.
  empties : List Char
  -- The last line began with a blank.
  blankBefore : Bool

/-- Joins the next line to a block; lines that begin with a blank are never folded. -/
def BlockText.join (folds : Bool) (b : BlockText) (line : List Char) (blank : Bool) : BlockText :=
  let fold := folds && b.lineEnd.head? == some '\n' && !b.blankBefore && !blank
  let between :=
    if fold then if b.empties.isEmpty then [' '] else [] else b.lineEnd
  ⟨line.reverse ++ (b.empties ++ (between ++ b.text)), [], [], blank⟩

/-- Reads the lines of a block. Each takes a character at least, so the turns left suffice for
    the empty lines left. -/
def blockLines (folds : Bool) (indent : Nat) :
    Nat → BlockText → Cursor → Option (BlockText × Cursor)
  | 0, _, _ => none
  | turns + 1, b, c =>
    if c.column = indent ∧ !isEnd c.head then do
      let (line, after) := c.takeWhile (!isBreakOrEnd ·)
      let b := b.join folds line (isBlank c.head)
      let (lineEnd, c) := after.takeBreak
      let (_, empties, c) ← blockBreaks indent (turns + 1) 0 [] c
      blockLines folds indent turns { b with lineEnd, empties } c
    else some (b, c)

/-- Reads a block at its mark, inside something with the indentation given. -/
def block (folds : Bool) (outer : Int) (c : Cursor) : Option (List Char × Cursor) := do
  let (chomping, increment, c) ← blockMarks? (c.skip 1)
  let c ← skipToBreak? c
  let given := if increment = 0 then 0 else (max outer 0).toNat + increment
  let (deepest, empties, c) ← blockBreaks given (c.rest.length + 1) 0 [] c
  let indent := if given = 0 then max (max deepest (outer + 1).toNat) 1 else given
  let (b, c) ← blockLines folds indent (c.rest.length + 1) ⟨[], [], empties, false⟩ c
  let tail :=
    match chomping with
    | .strip => []
    | .clip => b.lineEnd
    | .keep => b.empties ++ b.lineEnd
  return ((tail ++ b.text).reverse, c)

end Fleet.Yaml
