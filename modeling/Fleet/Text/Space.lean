/-!
# Blanks

White space in the sense of the Unicode property White_Space, and cutting it
off both ends of a text.

## Main definitions

* `isBlank`: The character is white space.
* `trim`: A text without the white space at its ends.
-/

namespace Fleet.Text

/-- The character has the Unicode property White_Space. -/
def isBlank (c : Char) : Bool :=
  let code := c.toNat
  (0x09 ≤ code && code ≤ 0x0D) || code == 0x20 || code == 0x85 || code == 0xA0 ||
    code == 0x1680 || (0x2000 ≤ code && code ≤ 0x200A) || code == 0x2028 || code == 0x2029 ||
    code == 0x202F || code == 0x205F || code == 0x3000

/-- Drops the elements at both ends that satisfy a test. -/
def strip {α : Type} (p : α → Bool) (xs : List α) : List α :=
  ((xs.dropWhile p).reverse.dropWhile p).reverse

/-- A text without the white space at its ends. -/
def trim (s : String) : String := String.ofList (strip isBlank s.toList)

/-- Whether a text holds nothing but white space. -/
def isBlankText (s : String) : Bool := s.toList.all isBlank

/-- A letter of ASCII in lower case; any other character as it is. -/
def lowerAscii (s : String) : String := s.map Char.toLower

end Fleet.Text
