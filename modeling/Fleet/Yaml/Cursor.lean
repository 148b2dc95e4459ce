/-!
# A place in a YAML text

YAML hangs on where things stand: how far a line is indented, and on which line
something began. A cursor is what is left of the text, with the line and the
column it has come to. The end of the text reads as a null character, which
cannot occur in it. The column counts characters; the place in the whole text
counts the octets of their encoding.

## Main definitions

* `Cursor`: A place in a text.
* `Cursor.takeWhile`, `Cursor.takeBreak`: Moving on within a line, and to the next.
* `isAllowed`: A character that may occur in a text.
-/

namespace Fleet.Yaml

/-- A character that may occur in a text. -/
def isAllowed (c : Char) : Bool :=
  let code := c.toNat
  code == 0x09 || code == 0x0A || code == 0x0D || (0x20 ≤ code && code ≤ 0x7E) || code == 0x85 ||
    (0xA0 ≤ code && code ≤ 0xD7FF) || (0xE000 ≤ code && code ≤ 0xFFFD) || 0x10000 ≤ code

/-- What the end of the text reads as. -/
def endMark : Char := '\x00'

/-- The byte order mark. -/
def orderMark : Char := '\uFEFF'

/-- The end of the text. -/
def isEnd (c : Char) : Bool := c == endMark

/-- A space or a tab. -/
def isBlank (c : Char) : Bool := c == ' ' || c == '\t'

/-- A character that ends a line. -/
def isBreak (c : Char) : Bool :=
  c == '\r' || c == '\n' || c == '\x85' || c == '\u2028' || c == '\u2029'

/-- A character that ends a line, or the end of the text. -/
def isBreakOrEnd (c : Char) : Bool := isBreak c || isEnd c

/-- A character at which words end, or the end of the text. -/
def isGap (c : Char) : Bool := isBlank c || isBreakOrEnd c

/-- A character of a name: a letter or digit of ASCII, a hyphen or an underscore. -/
def isWord (c : Char) : Bool := c.isAlphanum || c == '_' || c == '-'

/-- A place in a text. -/
structure Cursor where
  -- What is left of the text.
  rest : List Char
  -- Octets passed.
  octets : Nat
  -- Lines passed.
  line : Nat
  -- Characters passed on this line.
  column : Nat

namespace Cursor

/-- The beginning of a text. -/
def start (text : List Char) : Cursor := ⟨text, 0, 0, 0⟩

/-- The character some places ahead. -/
def peek (c : Cursor) (ahead : Nat) : Char := c.rest.getD ahead endMark

/-- The next character. -/
def head (c : Cursor) : Char := c.peek 0

/-- Passes characters of the line. -/
def skip (c : Cursor) (count : Nat) : Cursor :=
  let octets := (c.rest.take count).foldl (fun n x => n + x.utf8Size) c.octets
  ⟨c.rest.drop count, octets, c.line, c.column + count⟩

/-- The characters of the line up to the first without a property, and the place after them. -/
def takeWhile (p : Char → Bool) (c : Cursor) : List Char × Cursor :=
  let taken := c.rest.takeWhile p
  (taken, c.skip taken.length)

/-- The place after the characters with a property. -/
def skipWhile (p : Char → Bool) (c : Cursor) : Cursor := (c.takeWhile p).2

/-- The end of a line as it is kept, and the place after it: the usual ones become a line feed. -/
def takeBreak (c : Cursor) : List Char × Cursor :=
  match c.rest with
  | '\r' :: '\n' :: rest => (['\n'], ⟨rest, c.octets + 2, c.line + 1, 0⟩)
  | x :: rest =>
    if isBreak x then
      let kept := if x == '\u2028' || x == '\u2029' then x else '\n'
      ([kept], ⟨rest, c.octets + x.utf8Size, c.line + 1, 0⟩)
    else ([], c)
  | [] => ([], c)

/-- The place after the end of a line. -/
def skipBreak (c : Cursor) : Cursor := c.takeBreak.2

/-- Whether one of the marks that begin and end documents stands here, given its character. -/
def atDocumentMark (c : Cursor) (mark : Char) : Bool :=
  c.column == 0 && c.peek 0 == mark && c.peek 1 == mark && c.peek 2 == mark && isGap (c.peek 3)

/-- Whether a document begins or ends here. -/
def atDocumentEdge (c : Cursor) : Bool := c.atDocumentMark '-' || c.atDocumentMark '.'

end Cursor

/-- A piece of white space between two parts of a scalar. -/
structure Gap where
  -- Blanks, if there has been no end of a line, backwards.
  blanks : List Char
  -- There has been an end of a line.
  broken : Bool
  -- The first end of a line.
  first : List Char
  -- The further ends of lines, backwards.
  further : List Char

namespace Gap

/-- No white space. -/
def none : Gap := ⟨[], false, [], []⟩

/-- What the white space is read as, backwards: blanks as they are, a single end of a line as a
    space, and of several all but the first. -/
def folded (g : Gap) : List Char :=
  if !g.broken then g.blanks
  else if g.first.head? = some '\n' then if g.further.isEmpty then [' '] else g.further
  else g.further ++ g.first

/-- Takes the white space at a place. Where an indentation is given, a tab may not stand for
    part of it. -/
def take (indent : Nat) : Nat → Gap → Cursor → Option (Gap × Cursor)
  | 0, _, _ => .none
  | turns + 1, g, c =>
    if isBlank c.head then
      if g.broken && c.column < indent && c.head == '\t' then .none
      else
        let g := if g.broken then g else { g with blanks := c.head :: g.blanks }
        take indent turns g (c.skip 1)
    else if isBreak c.head then
      let (lineEnd, c) := c.takeBreak
      let g :=
        if g.broken then { g with further := lineEnd ++ g.further }
        else { g with blanks := [], broken := true, first := lineEnd }
      take indent turns g c
    else some (g, c)

end Gap

end Fleet.Yaml
