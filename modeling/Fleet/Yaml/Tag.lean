import Fleet.Json.Reader
import Fleet.Text.Utf8
import Fleet.Yaml.Cursor

/-!
# Tags of YAML

A tag says what a value is. It is written in full between angle brackets, or
begins with a handle, which abbreviates a beginning that many tags share. What
is written after the handle is ASCII, but an escape may stand for any octet, so
a tag is a list of octets, which ends before the first zero.

## Main definitions

* `WrittenTag`: A tag as it is written.
* `WrittenTag.read?`: Reading a tag, with the place after it.
* `WrittenTag.resolve?`: The tag in full.
-/

namespace Fleet.Yaml

/-- A tag in full, as octets. -/
abbrev Tag := List UInt8

/-- A tag as it is written, with an empty handle if it is written in full. -/
structure WrittenTag where
  -- What abbreviates the beginning of the tag.
  handle : List Char
  -- The rest of the tag.
  rest : Tag
  deriving DecidableEq

/-! ### Octets -/

/-- A character that a tag may hold as it is; the first list of them holds only between angle
    brackets and in directives. -/
def isTagChar (full : Bool) (c : Char) : Bool :=
  (full && [',', '[', ']'].contains c) || isWord c || ";/?:@&=+$.!~*'()".toList.contains c

/-- The octet an escape stands for, and the place after it. -/
def octet? (c : Cursor) : Option (Nat × Cursor) := do
  if c.head ≠ '%' then none
  let high ← Json.hexDigit? (c.peek 1)
  let low ← Json.hexDigit? (c.peek 2)
  return (high * 16 + low, c.skip 3)

/-- Number of octets that have to follow the first one of a character. -/
def octetsAfter? (first : Nat) : Option Nat :=
  if first < 0x80 then some 0
  else if first < 0xC0 then none
  else if first < 0xE0 then some 1
  else if first < 0xF0 then some 2
  else if first < 0xF8 then some 3
  else none

/-- Escapes of octets that cannot be the first of a character. -/
def laterOctets? : Nat → Cursor → Option (Tag × Cursor)
  | 0, c => some ([], c)
  | count + 1, c => do
    let (octet, c) ← octet? c
    if octet / 0x40 ≠ 2 then none
    let (more, c) ← laterOctets? count c
    return (UInt8.ofNat octet :: more, c)

/-- The escapes of one character. -/
def escapedChar? (c : Cursor) : Option (Tag × Cursor) := do
  let (first, c) ← octet? c
  let (more, c) ← laterOctets? (← octetsAfter? first) c
  return (UInt8.ofNat first :: more, c)

/-- The octets written at a place; `octets` are those before it, backwards. -/
def octetsFrom (full : Bool) : Nat → Tag → Cursor → Option (Tag × Cursor)
  | 0, _, _ => none
  | turns + 1, octets, c =>
    if c.head = '%' then
      (escapedChar? c).bind fun (more, c) => octetsFrom full turns (more.reverse ++ octets) c
    else if isTagChar full c.head then
      octetsFrom full turns (UInt8.ofNat c.head.toNat :: octets) (c.skip 1)
    else some (octets.reverse, c)

/-- The octets written at a place, and the place after them. -/
def octets? (full : Bool) (c : Cursor) : Option (Tag × Cursor) :=
  octetsFrom full (c.rest.length + 1) [] c

/-- What is left of octets that end before the first zero. -/
def beforeZero (octets : Tag) : Tag := octets.takeWhile (· != 0)

/-! ### Tags -/

/-- A handle: an exclamation mark, perhaps with a word, perhaps with a second mark. -/
def handle? (c : Cursor) : Option (List Char × Cursor) :=
  if c.head = '!' then
    let (word, c) := (c.skip 1).takeWhile isWord
    if c.head = '!' then some ('!' :: word ++ ['!'], c.skip 1) else some ('!' :: word, c)
  else none

/-- Whether a handle has its second mark. -/
def isClosedHandle (handle : List Char) : Bool := handle.drop 1 |>.getLast? |>.any (· == '!')

namespace WrittenTag

/-- Reads a tag between angle brackets. -/
def readFull? (c : Cursor) : Option (WrittenTag × Cursor) := do
  let (octets, c) ← octets? true (c.skip 2)
  if octets.isEmpty ∨ c.head ≠ '>' then none
  return (⟨[], beforeZero octets⟩, c.skip 1)

/-- Reads a tag with a handle. A handle without its second mark is a mark alone, with the word
    belonging to the tag; the mark alone is a tag in full. -/
def readShort? (c : Cursor) : Option (WrittenTag × Cursor) := do
  let (handle, c) ← handle? c
  let (octets, c) ← octets? false c
  if isClosedHandle handle then
    if octets.isEmpty then none
    return (⟨handle, beforeZero octets⟩, c)
  let rest := beforeZero (Text.encode (String.ofList (handle.drop 1)) ++ octets)
  if rest.isEmpty then return (⟨[], Text.encode "!"⟩, c)
  return (⟨['!'], rest⟩, c)

/-- Reads a tag at its exclamation mark. -/
def read? (c : Cursor) : Option (WrittenTag × Cursor) :=
  if c.peek 1 = '<' then readFull? c else readShort? c

/-- The tag in full, given what handles stand for; refuses a handle that stands for nothing. -/
def resolve? (handles : List (List Char × Tag)) (tag : WrittenTag) : Option Tag :=
  if tag.handle.isEmpty then some tag.rest
  else (handles.lookup tag.handle).map (· ++ tag.rest)

end WrittenTag

end Fleet.Yaml
