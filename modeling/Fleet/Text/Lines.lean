/-!
# Lines

A line ends with a line feed, and a carriage return in front of that line feed
belongs to the end and not to the line. A carriage return anywhere else is an
ordinary element. What follows the last line feed is a line only if it is not
empty.

The rule is stated for any alphabet, because it is applied to decoded text and
to raw bytes alike.

## Main definitions

* `linesOf`: The lines of a list over any alphabet.
* `lines`: The lines of a text.
* `byteLines`: The lines of raw bytes.
-/

namespace Fleet.Text

variable {α : Type} [DecidableEq α]

/-- A line given backwards, without a carriage return at its end. -/
def dropReturn (cr : α) : List α → List α
  | [] => []
  | c :: line => if c = cr then line else c :: line

/-- Cuts at line feeds; `line` is the line so far, backwards. -/
def cutLines (lf cr : α) (line : List α) : List α → List (List α)
  | [] => if line.isEmpty then [] else [line.reverse]
  | c :: rest =>
    if c = lf then (dropReturn cr line).reverse :: cutLines lf cr [] rest
    else cutLines lf cr (c :: line) rest

/-- The lines of a list, given what a line feed and a carriage return are. -/
def linesOf (lf cr : α) (xs : List α) : List (List α) := cutLines lf cr [] xs

/-- The lines of a text. -/
def lines (s : String) : List String := (linesOf '\n' '\r' s.toList).map String.ofList

/-- The lines of raw bytes. -/
def byteLines (bytes : List UInt8) : List (List UInt8) := linesOf 10 13 bytes

end Fleet.Text
