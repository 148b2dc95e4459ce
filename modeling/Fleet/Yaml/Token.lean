import Fleet.Yaml.Scalar
import Fleet.Yaml.Tag

/-!
# Tokens of YAML

A text is cut into tokens before its structure is read. Indentation is turned
into tokens as well: a collection of lines has a token where it begins and one
where it ends, just as one in brackets does.

A directive is a line before a document that says how the document is written.

## Main definitions

* `Token`: A token.
* `Token.directive?`, `Token.name?`: Reading directives and the names of anchors.
-/

namespace Fleet.Yaml

/-- A token. -/
inductive Token
  -- The directive that gives the version of the format.
  | version (major minor : Nat)
  -- The directive that gives a handle of tags its meaning.
  | handle (handle : List Char) (meaning : Tag)
  | documentStart
  | documentEnd
  | blockSequenceStart
  | blockMappingStart
  -- The end of a collection of lines.
  | blockEnd
  | flowSequenceStart
  | flowSequenceEnd
  | flowMappingStart
  | flowMappingEnd
  -- A hyphen before an item.
  | blockEntry
  -- A comma between items.
  | flowEntry
  -- What follows is a key.
  | key
  -- What follows is a value.
  | value
  | alias (name : String)
  | anchor (name : String)
  | tag (tag : WrittenTag)
  | scalar (style : Style) (text : String)
  deriving DecidableEq

namespace Token

/-! ### Directives -/

/-- A number of up to nine digits. -/
def number? (c : Cursor) : Option (Nat × Cursor) :=
  let (digits, c) := c.takeWhile Char.isDigit
  if digits.isEmpty ∨ 9 < digits.length then none else some (Json.ofDigits digits, c)

/-- The version a directive gives. -/
def version? (c : Cursor) : Option (Token × Cursor) := do
  let (major, c) ← number? (c.skipWhile isBlank)
  if c.head ≠ '.' then none
  let (minor, c) ← number? (c.skip 1)
  return (version major minor, c)

/-- The handle a directive gives a meaning, and the meaning. -/
def handle? (c : Cursor) : Option (Token × Cursor) := do
  let (name, c) ← Yaml.handle? (c.skipWhile isBlank)
  if ¬(isClosedHandle name ∨ name = ['!']) ∨ ¬isBlank c.head then none
  let (octets, c) ← octets? true (c.skipWhile isBlank)
  if octets.isEmpty ∨ ¬isGap c.head then none
  return (handle name (beforeZero octets), c)

/-- Reads a directive at its percent sign, up to the end of its line. -/
def directive? (c : Cursor) : Option (Token × Cursor) := do
  let (name, c) := (c.skip 1).takeWhile isWord
  if ¬isGap c.head then none
  let (token, c) ←
    match String.ofList name with
    | "YAML" => version? c
    | "TAG" => handle? c
    | _ => none
  return (token, ← skipToBreak? c)

/-! ### Names -/

/-- A character that may follow the name of an anchor. -/
def endsName (c : Char) : Bool := isGap c || "?:,]\x7d%@\x60".toList.contains c

/-- Reads the name of an anchor after its mark. -/
def name? (c : Cursor) : Option (String × Cursor) :=
  let (word, c) := (c.skip 1).takeWhile isWord
  if word.isEmpty ∨ ¬endsName c.head then none else some (String.ofList word, c)

end Token

end Fleet.Yaml
