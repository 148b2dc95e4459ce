import Fleet.Json.Numeral

/-!
# Reading JSON

The text is first cut into marks and scalars, and these are then put together
by a machine that keeps the containers still open on a stack. Both passes run
once over a list and neither calls itself inside a container, so nesting of any
depth costs no more than its length.

The reader is strict: blanks are the space, the tab and the two line ends; a
string holds no raw control character and no escape but the ones of the format;
a number has no leading zero and no bare point; nothing follows the value.

What numbers are worth does not matter for this, and may be chosen. A number
that is worth nothing is as good as any where it is passed over.

## Main definitions

* `Json.Token`: A mark or a scalar.
* `Json.tokens`: The tokens of a text.
* `Json.Assembly`: Containers still open, and what may come next.
* `Json.parseWith`: The value of a text, given what numbers are worth.
* `Json.parse`: The value of a text.
-/

namespace Fleet.Json

/-- A mark or a scalar. -/
inductive Token
  | openList
  | closeList
  | openObject
  | closeObject
  | comma
  | colon
  | scalar (value : Json)
  -- A number that is worth nothing.
  | worthless

/-- The value of a hexadecimal digit. -/
def hexDigit? (c : Char) : Option Nat :=
  if '0' ≤ c ∧ c ≤ '9' then some (c.toNat - '0'.toNat)
  else if 'a' ≤ c ∧ c ≤ 'f' then some (c.toNat - 'a'.toNat + 10)
  else if 'A' ≤ c ∧ c ≤ 'F' then some (c.toNat - 'A'.toNat + 10)
  else none

/-- The value of four hexadecimal digits. -/
def hexUnit? (a b c d : Char) : Option Nat := do
  return (((← hexDigit? a) * 16 + (← hexDigit? b)) * 16 + (← hexDigit? c)) * 16 + (← hexDigit? d)

/-- Joins surrogate pairs; refuses half a pair. -/
def joinPairs : List Nat → Option (List Char)
  | [] => some []
  | unit :: rest =>
    if 0xD800 ≤ unit ∧ unit < 0xDC00 then
      match rest with
      | low :: rest =>
        if 0xDC00 ≤ low ∧ low < 0xE000 then
          (joinPairs rest).map
            (Char.ofNat (0x10000 + (unit - 0xD800) * 0x400 + (low - 0xDC00)) :: ·)
        else none
      | [] => none
    else if 0xDC00 ≤ unit ∧ unit < 0xE000 then none
    else (joinPairs rest).map (Char.ofNat unit :: ·)

/-- A character after a backslash that stands for one other character. -/
def simpleEscape? : Char → Option Nat
  | '"' => some 0x22
  | '\\' => some 0x5C
  | '/' => some 0x2F
  | 'b' => some 0x08
  | 'f' => some 0x0C
  | 'n' => some 0x0A
  | 'r' => some 0x0D
  | 't' => some 0x09
  | _ => none

/-- Reads a string after its opening quote; `units` are its code units so far, backwards. -/
def stringBody (units : List Nat) : List Char → Option (Json × List Char)
  | '"' :: rest =>
    some ((joinPairs units.reverse).elim garbled (text ∘ String.ofList), rest)
  | '\\' :: 'u' :: a :: b :: c :: d :: rest =>
    (hexUnit? a b c d).bind fun unit => stringBody (unit :: units) rest
  | '\\' :: c :: rest => (simpleEscape? c).bind fun unit => stringBody (unit :: units) rest
  | c :: rest => if c.toNat < 0x20 then none else stringBody (c.toNat :: units) rest
  | [] => none

/-- Digits at the front and what follows them. -/
def digitRun (cs : List Char) : List Char × List Char :=
  (cs.takeWhile Char.isDigit, cs.dropWhile Char.isDigit)

/-- The digits of a fraction, if there is a point. -/
def fraction? : List Char → Option (List Char × List Char)
  | '.' :: rest =>
    let (digits, rest) := digitRun rest
    if digits.isEmpty then none else some (digits, rest)
  | rest => some ([], rest)

/-- The digits of an exponent after its mark and sign. -/
def exponentDigits? (negative : Bool) (cs : List Char) : Option (Option Int × List Char) :=
  let (digits, rest) := digitRun cs
  if digits.isEmpty then none
  else
    let n : Int := ofDigits digits
    some (some (if negative then -n else n), rest)

/-- The exponent, if there is one. -/
def exponent? : List Char → Option (Option Int × List Char)
  | c :: rest =>
    if c = 'e' ∨ c = 'E' then
      match rest with
      | '+' :: rest => exponentDigits? false rest
      | '-' :: rest => exponentDigits? true rest
      | rest => exponentDigits? false rest
    else some (none, c :: rest)
  | [] => some (none, [])

/-- The parts of a number whose sign has been read. -/
def numeral? (negative : Bool) (cs : List Char) : Option (Numeral × List Char) := do
  let (whole, rest) := digitRun cs
  if whole.isEmpty ∨ (1 < whole.length ∧ whole.head? = some '0') then none
  let (places, rest) ← fraction? rest
  let (exponent, rest) ← exponent? rest
  return (⟨negative, whole, places, exponent⟩, rest)

section Worth

variable (worth : Numeral → Option Json)

/-- The token of a number. -/
def numberToken (n : Numeral) : Token := (worth n).elim .worthless .scalar

/-- A token and what follows it. -/
def token? : List Char → Option (Token × List Char)
  | '[' :: rest => some (.openList, rest)
  | ']' :: rest => some (.closeList, rest)
  | '{' :: rest => some (.openObject, rest)
  | '}' :: rest => some (.closeObject, rest)
  | ',' :: rest => some (.comma, rest)
  | ':' :: rest => some (.colon, rest)
  | '"' :: rest => (stringBody [] rest).map fun (value, rest) => (.scalar value, rest)
  | '-' :: rest => (numeral? true rest).map fun (n, rest) => (numberToken worth n, rest)
  | 'n' :: 'u' :: 'l' :: 'l' :: rest => some (.scalar null, rest)
  | 't' :: 'r' :: 'u' :: 'e' :: rest => some (.scalar (bool true), rest)
  | 'f' :: 'a' :: 'l' :: 's' :: 'e' :: rest => some (.scalar (bool false), rest)
  | rest => (numeral? false rest).map fun (n, rest) => (numberToken worth n, rest)

/-- A blank of the format. -/
def isGap (c : Char) : Bool := c == ' ' || c == '\t' || c == '\n' || c == '\r'

/-- The tokens of a text, backwards. Every token takes at least one character, so as many turns
    as there are characters are enough. -/
def tokensFrom (done : List Token) : Nat → List Char → Option (List Token)
  | _, [] => some done
  | 0, _ => none
  | turns + 1, c :: rest =>
    if isGap c then tokensFrom done turns rest
    else (token? worth (c :: rest)).bind fun (token, rest) => tokensFrom (token :: done) turns rest

/-- The tokens of a text. -/
def tokens (cs : List Char) : Option (List Token) :=
  (tokensFrom worth [] cs.length cs).map List.reverse

end Worth

/-- A container still open, its contents backwards. -/
inductive Frame
  | list (items : List Json)
  -- `key` is the key of the value being read; an entry or a key that is not a text is `none`.
  | object (entries : Option (List (String × Json))) (key : Option String)

/-- What may come next. -/
inductive Expected
  -- A value, or the end of a list that has none yet.
  | value (orEnd : Bool)
  -- A key, or the end of an object that has none yet.
  | key (orEnd : Bool)
  | colon
  -- A comma or the end of the innermost container.
  | separator
  -- Nothing: the value is complete.
  | nothing (value : Json)

/-- The containers still open, innermost first, and what may come next. -/
structure Assembly where
  -- Containers still open.
  frames : List Frame
  -- What may come next.
  expected : Expected

/-- Hands a finished value to the innermost container. -/
def Assembly.give (frames : List Frame) (value : Json) : Assembly :=
  match frames with
  | [] => ⟨[], .nothing value⟩
  | .list items :: frames => ⟨.list (value :: items) :: frames, .separator⟩
  | .object entries key :: frames =>
    let entries := entries.bind fun entries => key.map fun key => (key, value) :: entries
    ⟨.object entries none :: frames, .separator⟩

/-- Closes the innermost container with the mark given. -/
def Assembly.close (frames : List Frame) (token : Token) : Option Assembly :=
  match frames, token with
  | .list items :: frames, .closeList => some (give frames (list items.reverse))
  | .object entries _ :: frames, .closeObject =>
    some (give frames (entries.elim garbled fun entries => object entries.reverse))
  | _, _ => none

/-- Begins a value. -/
def Assembly.begin (frames : List Frame) (token : Token) : Option Assembly :=
  match token with
  | .scalar value => some (give frames value)
  | .worthless => some (give frames garbled)
  | .openList => some ⟨.list [] :: frames, .value true⟩
  | .openObject => some ⟨.object (some []) none :: frames, .key true⟩
  | _ => none

/-- Takes one token. -/
def Assembly.step (a : Assembly) (token : Token) : Option Assembly :=
  match a.expected, token, a.frames with
  | .value true, .closeList, frames => close frames .closeList
  | .value _, token, frames => begin frames token
  | .key true, .closeObject, frames => close frames .closeObject
  | .key _, .scalar (.text key), .object entries _ :: frames =>
    some ⟨.object entries (some key) :: frames, .colon⟩
  | .key _, .scalar .garbled, .object _ _ :: frames => some ⟨.object none none :: frames, .colon⟩
  | .colon, .colon, frames => some ⟨frames, .value false⟩
  | .separator, .comma, .list items :: frames => some ⟨.list items :: frames, .value false⟩
  | .separator, .comma, .object entries key :: frames =>
    some ⟨.object entries key :: frames, .key false⟩
  | .separator, token, frames => close frames token
  | _, _, _ => none

/-- The value of a text, or nothing if the text is not JSON. -/
def parseWith (worth : Numeral → Option Json) (s : String) : Option Json := do
  let a ← (← tokens worth s.toList).foldlM Assembly.step ⟨[], .value false⟩
  match a.expected with
  | .nothing value => some value
  | _ => none

/-- The value of a text, its numbers read in two steps. -/
def parse (s : String) : Option Json := parseWith Numeral.value? s

end Fleet.Json
