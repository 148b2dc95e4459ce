import Fleet.Text.Extending
import Fleet.Text.Unprintable

/-!
# Quoted text

How a text is shown inside a message: in double quotes, with the characters
that would end the quotation, break the line or leave no trace written as
escapes.

A quotation mark and a backslash get a backslash in front; the tab, the line
ends and the null character have a letter of their own; everything else that
has no visible form, or that would combine with the character in front of it,
is written as its code point in hexadecimal between braces.

Two small sets depart from what the properties of the standard say. The Hangul
fillers are letters, but blank ones, so they leave no trace; the halfwidth
katakana sound marks extend the character before them, but take a place of
their own, so they do.

## Main definitions

* `isHidden`: A character that would leave no trace.
* `escaped`: One character as it stands between the quotes.
* `quoted`: A text in quotes.
-/

namespace Fleet.Text

/-- The digits of a number in lower-case hexadecimal. -/
def hex (n : Nat) : List Char := Nat.toDigits 16 n

/-- Letters that stand for a missing part of a syllable and show as nothing. -/
def fillers : CodeRanges := [(0x115F, 0x1160), (0x3164, 0x3164), (0xFFA0, 0xFFA0)]

/-- Marks of the halfwidth katakana, which extend a character but stand beside it. -/
def soundMarks : CodeRanges := [(0xFF9E, 0xFF9F)]

/-- Whether a character would leave no trace of its own between quotes. -/
def isHidden (c : Char) : Bool :=
  let code := c.toNat
  if code < 0x7F then code < 0x20
  else code == 0x7F || unprintable.has code || fillers.has code ||
    (extending.has code && !soundMarks.has code)

/-- A character as it stands between the quotes. -/
def escaped (c : Char) : List Char :=
  match c with
  | '\x00' => ['\\', '0']
  | '\t' => ['\\', 't']
  | '\n' => ['\\', 'n']
  | '\r' => ['\\', 'r']
  | '"' => ['\\', '"']
  | '\\' => ['\\', '\\']
  | c => if isHidden c then ['\\', 'u', '{'] ++ hex c.toNat ++ ['}'] else [c]

/-- A text in quotes. -/
def quoted (s : String) : String :=
  String.ofList (['"'] ++ s.toList.flatMap escaped ++ ['"'])

end Fleet.Text
