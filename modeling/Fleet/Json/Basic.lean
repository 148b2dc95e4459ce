import Fleet.Binary64.Layout

/-!
# JSON values and their text

A JSON value keeps what the text said and no more: the entries of an object in
the order written, duplicates included, and integers apart from numbers with a
fraction or an exponent, since readers of typed data refuse the second where
they ask for the first.

A text may escape half of a surrogate pair. Such a string is well formed, and
may be passed over, but it is not a text; `garbled` stands for it, for an
object one of whose keys is such a string, and for a number that is beyond
every double.

The written form is compact, one line without blanks.

## Main definitions

* `Json`: A JSON value.
* `Json.layout`: How numbers are written.
* `Json.render`: The text of a value.
-/

namespace Fleet

/-- A JSON value. -/
inductive Json
  | null
  | bool (value : Bool)
  -- A number written without fraction and exponent.
  | integer (value : Int)
  -- Any other number.
  | real (value : Binary64)
  | text (value : String)
  -- A string, or an object with a key, that holds half of a surrogate pair, or a number that is
  -- beyond every double.
  | garbled
  | list (items : List Json)
  | object (entries : List (String × Json))
  deriving Inhabited

namespace Json

/-- Numbers are positional while the leading digit stands for `10 ^ -5` to `10 ^ 15`, whole
    numbers end in `.0`, a tie goes to the even digit, and what is not finite is `null`. -/
def layout : NumberLayout where
  least := some (-5)
  greatest := some 15
  wholeFraction := true
  tie := .toEven
  infinite := "null"
  undefined := "null"
  signedInfinity := false

/-- A control character as its code point in four hexadecimal digits. -/
def codeEscape (code : Nat) : List Char :=
  let digits := Nat.toDigits 16 code
  ['\\', 'u'] ++ List.replicate (4 - digits.length) '0' ++ digits

/-- A character as it stands in a string. -/
def escape (c : Char) : List Char :=
  match c with
  | '"' => ['\\', '"']
  | '\\' => ['\\', '\\']
  | '\x08' => ['\\', 'b']
  | '\x0c' => ['\\', 'f']
  | '\n' => ['\\', 'n']
  | '\r' => ['\\', 'r']
  | '\t' => ['\\', 't']
  | c => if c.toNat < 0x20 then codeEscape c.toNat else [c]

/-- The text of a string. -/
def writeText (s : String) : List Char := ['"'] ++ s.toList.flatMap escape ++ ['"']

/-- The text of an integer. -/
def writeInteger (n : Int) : List Char :=
  (if n < 0 then ['-'] else []) ++ Nat.toDigits 10 n.natAbs

mutual

/-- The text of a value. -/
def write : Json → List Char
  | null => ['n', 'u', 'l', 'l']
  | bool true => ['t', 'r', 'u', 'e']
  | bool false => ['f', 'a', 'l', 's', 'e']
  | integer n => writeInteger n
  | real x => (layout.write x).toList
  | text s => writeText s
  | garbled => writeText ""
  | list [] => ['[', ']']
  | list (item :: items) => '[' :: write item ++ writeItems items
  | object [] => ['{', '}']
  | object ((key, value) :: entries) =>
    '{' :: writeText key ++ ':' :: write value ++ writeEntries entries

/-- The items after the first, and the end of the list. -/
def writeItems : List Json → List Char
  | [] => [']']
  | item :: items => ',' :: write item ++ writeItems items

/-- The entries after the first, and the end of the object. -/
def writeEntries : List (String × Json) → List Char
  | [] => ['}']
  | (key, value) :: entries => ',' :: writeText key ++ ':' :: write value ++ writeEntries entries

end

/-- The compact text of a value. -/
def render (value : Json) : String := String.ofList value.write

/-- A list of texts. -/
def texts (items : List String) : Json := list (items.map text)

end Json

end Fleet
