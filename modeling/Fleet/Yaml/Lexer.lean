import Fleet.Yaml.Token

/-!
# Cutting a YAML text into tokens

A text is read from left to right, and two things are only known afterwards.

That something is a key shows when the colon after it comes. So wherever a key
may begin, the place is kept as a candidate, and the token that says so is put
in there once the colon is met. A candidate lapses at the end of its line, or
1024 octets on; one that stands at the indentation of its collection cannot
be anything but a key, and its lapsing is an error.

That a collection of lines is over shows when a line is indented less than the
collection. The lexer keeps the indentations of the collections it is in. Inside
brackets indentation means nothing.

## Main definitions

* `Lexer`: What is known halfway through a text.
* `Lexer.take`: Reading the next token.
* `tokens?`: The tokens of a text.
-/

namespace Fleet.Yaml

/-- A place where a key may begin. -/
structure Candidate where
  -- It cannot be anything but a key.
  required : Bool
  -- Number of tokens before it.
  number : Nat
  place : Cursor

/-- A candidate lapses at the end of its line, and 1024 octets on. -/
def Candidate.lapsed (k : Candidate) (now : Cursor) : Bool :=
  k.place.line < now.line || k.place.octets + 1024 < now.octets

/-- What becomes of a candidate at a place; refuses the lapsing of a required one. -/
def Candidate.settle? (now : Cursor) : Option Candidate → Option (Option Candidate)
  | none => some none
  | some k =>
    if !k.lapsed now then some (some k) else if k.required then none else some none

/-- What is known halfway through a text. -/
structure Lexer where
  -- The place that has been reached.
  cursor : Cursor
  -- The tokens so far, the latest first.
  tokens : List Token
  -- Their number.
  count : Nat
  -- The indentation of the innermost collection of lines, `-1` outside of all.
  indent : Int
  -- The indentations around it, the innermost first.
  outer : List Int
  -- A key may begin here.
  keyAllowed : Bool
  -- The candidate of the innermost brackets.
  candidate : Option Candidate
  -- The candidates outside of them, the innermost first.
  outerCandidates : List (Option Candidate)

namespace Lexer

/-- Before a text. -/
def start (text : List Char) : Lexer := ⟨.start text, [], 0, -1, [], true, none, []⟩

/-- Whether the place is inside brackets. -/
def inFlow (l : Lexer) : Bool := !l.outerCandidates.isEmpty

/-- Puts a token in before the latest ones. -/
def insert (l : Lexer) (token : Token) (latest : Nat) : Lexer :=
  { l with tokens := l.tokens.insertIdx latest token, count := l.count + 1 }

/-- Adds a token that ends at a place, after which a key may begin or not. -/
def emit (l : Lexer) (token : Token) (cursor : Cursor) (keyAllowed : Bool) : Lexer :=
  { l.insert token 0 with cursor, keyAllowed }

/-! ### Indentation -/

/-- Ends the collections that are indented more than a column. -/
def dedent (column : Int) : List Int → Lexer → Lexer
  | [], l => l
  | i :: outer, l =>
    if l.indent ≤ column then l
    else dedent column outer { l.insert .blockEnd 0 with indent := i, outer }

/-- Ends the collections of lines that are indented more than a column. -/
def closeTo (column : Int) (l : Lexer) : Lexer :=
  if l.inFlow then l else dedent column l.outer l

/-- Begins a collection of lines, unless it is there already; its token goes in before the latest
    ones. -/
def openAt (column : Nat) (token : Token) (latest : Nat) (l : Lexer) : Lexer :=
  if l.inFlow ∨ column ≤ l.indent then l
  else { l.insert token latest with indent := column, outer := l.indent :: l.outer }

/-! ### Candidates -/

/-- Gives up the candidate; refuses to if it is required. -/
def forgo (l : Lexer) : Option Lexer :=
  if l.candidate.any (·.required) then none else some { l with candidate := none }

/-- Makes this place the candidate, if a key may begin here. -/
def propose (l : Lexer) : Option Lexer :=
  if !l.keyAllowed then some l
  else
    (Lexer.forgo l).map fun l =>
      let required := !l.inFlow && l.indent == l.cursor.column
      { l with candidate := some ⟨required, l.count, l.cursor⟩ }

/-! ### Tokens of structure -/

/-- Reads a mark that begins or ends a document, or a directive. -/
def atMargin (l : Lexer) (token : Token) (after : Cursor) : Option Lexer :=
  (l.closeTo (-1)).forgo.map (·.emit token after false)

/-- Reads an opening bracket. -/
def openFlow (token : Token) (l : Lexer) : Option Lexer :=
  l.propose.map fun l =>
    { l.emit token (l.cursor.skip 1) true with
      candidate := none
      outerCandidates := l.candidate :: l.outerCandidates }

/-- Reads a closing bracket. -/
def closeFlow (token : Token) (l : Lexer) : Option Lexer :=
  l.forgo.map fun l =>
    let l := l.emit token (l.cursor.skip 1) false
    match l.outerCandidates with
    | [] => l
    | candidate :: outerCandidates => { l with candidate, outerCandidates }

/-- Reads a comma between items. -/
def flowEntry (l : Lexer) : Option Lexer :=
  l.forgo.map fun l => l.emit .flowEntry (l.cursor.skip 1) true

/-- Begins a collection of lines where a key may begin; inside brackets there is none. -/
def openHere (token : Token) (l : Lexer) : Option Lexer :=
  if l.inFlow then some l
  else if l.keyAllowed then some (l.openAt l.cursor.column token 0)
  else none

/-- Reads a hyphen before an item. -/
def blockEntry (l : Lexer) : Option Lexer := do
  let l ← (← l.openHere .blockSequenceStart).forgo
  return l.emit .blockEntry (l.cursor.skip 1) true

/-- Reads a question mark before a key. -/
def key (l : Lexer) : Option Lexer := do
  let l ← (← l.openHere .blockMappingStart).forgo
  return l.emit .key (l.cursor.skip 1) !l.inFlow

/-- Reads a colon before a value, the candidate turning out to be a key. -/
def value (l : Lexer) : Option Lexer :=
  match l.candidate with
  | some k =>
    let latest := l.count - k.number
    let l := { l.insert .key latest with candidate := none }
    let l := l.openAt k.place.column .blockMappingStart (latest + 1)
    some (l.emit .value (l.cursor.skip 1) false)
  | none =>
    (l.openHere .blockMappingStart).map fun l => l.emit .value (l.cursor.skip 1) !l.inFlow

/-! ### Tokens of content -/

/-- Reads an alias or an anchor. -/
def name (token : String → Token) (l : Lexer) : Option Lexer := do
  let l ← l.propose
  let (name, after) ← Token.name? l.cursor
  return l.emit (token name) after false

/-- Reads a tag. -/
def tag (l : Lexer) : Option Lexer := do
  let l ← l.propose
  let (tag, after) ← WrittenTag.read? l.cursor
  if ¬(isGap after.head ∨ (l.inFlow ∧ after.head = ',')) then none
  return l.emit (.tag tag) after false

/-- Reads a block of lines. -/
def block (folds : Bool) (l : Lexer) : Option Lexer := do
  if l.inFlow then none
  let l ← l.forgo
  let (text, after) ← Yaml.block folds l.indent l.cursor
  let style := if folds then Style.folded else .literal
  return l.emit (.scalar style (String.ofList text)) after true

/-- Reads a quoted scalar. -/
def quoted (single : Bool) (l : Lexer) : Option Lexer := do
  let l ← l.propose
  let (text, after) ← Yaml.quoted single l.cursor
  let style := if single then Style.singleQuoted else .doubleQuoted
  return l.emit (.scalar style (String.ofList text)) after false

/-- Reads a plain scalar. After the end of a line a key may begin. -/
def plain (l : Lexer) : Option Lexer := do
  let l ← l.propose
  let (text, broken, after) ← Yaml.plain l.inFlow (l.indent + 1).toNat l.cursor
  return l.emit (.scalar .plain (String.ofList text)) after broken

/-- Reads the next token, which is not the end of the text. -/
def take (l : Lexer) : Option Lexer :=
  let c := l.cursor
  let alone := l.inFlow || isGap (c.peek 1)
  if c.column = 0 ∧ c.head = '%' then
    (Token.directive? c).bind fun (token, after) => l.atMargin token after
  else if c.atDocumentMark '-' then l.atMargin .documentStart (c.skip 3)
  else if c.atDocumentMark '.' then l.atMargin .documentEnd (c.skip 3)
  else
    match c.head with
    | '[' => l.openFlow .flowSequenceStart
    | ']' => l.closeFlow .flowSequenceEnd
    | '{' => l.openFlow .flowMappingStart
    | '}' => l.closeFlow .flowMappingEnd
    | ',' => l.flowEntry
    | '-' => if isGap (c.peek 1) then l.blockEntry else l.plain
    | '?' => if alone then l.key else l.plain
    | ':' => if alone then l.value else l.plain
    | '*' => l.name .alias
    | '&' => l.name .anchor
    | '!' => l.tag
    | '|' => l.block false
    | '>' => l.block true
    | '\'' => l.quoted true
    | '"' => l.quoted false
    | '#' | '%' | '@' | '\x60' => none
    | x => if isGap x then none else l.plain

/-! ### The whole text -/

/-- Passes blanks, comments and ends of lines. A tab may not stand where a key may begin, and a
    byte order mark at the beginning of a line is passed as a character that takes a column. -/
def passGap : Nat → Lexer → Lexer
  | 0, l => l
  | turns + 1, l =>
    let c := l.cursor
    let c := if c.column == 0 && c.head == orderMark then c.skip 1 else c
    let tabs := l.inFlow || !l.keyAllowed
    let c := c.skipWhile fun x => x == ' ' || (tabs && x == '\t')
    let c := if c.head == '#' then c.skipWhile (!isBreakOrEnd ·) else c
    if isBreak c.head then
      passGap turns { l with cursor := c.skipBreak, keyAllowed := l.keyAllowed || !l.inFlow }
    else { l with cursor := c }

/-- Goes to the next token, candidates lapsing and collections ending on the way. -/
def approach (turns : Nat) (l : Lexer) : Option Lexer := do
  let l := l.passGap turns
  let candidate ← Candidate.settle? l.cursor l.candidate
  let outerCandidates ← l.outerCandidates.mapM (Candidate.settle? l.cursor)
  return closeTo l.cursor.column { l with candidate, outerCandidates }

/-- Reads tokens to the end of the text. Each takes a character at least, so the turns that are
    left suffice for the ends of lines that are left. -/
def run : Nat → Lexer → Option (List Token)
  | 0, _ => none
  | turns + 1, l => do
    let l ← l.approach (turns + 1)
    if isEnd l.cursor.head then return (← (l.closeTo (-1)).forgo).tokens.reverse
    run turns (← l.take)

end Lexer

/-- The tokens of a text. -/
def tokens? (text : List Char) : Option (List Token) :=
  if text.all isAllowed then Lexer.run (text.length + 1) (.start text) else none

end Fleet.Yaml
