import Fleet.Binary64.Shortest

/-!
# Layouts of a double

The shortest digits of a double are the same in every format; where the point
stands, when an exponent is written and what an undefined number looks like are
decisions of the format, and are collected in one record.

## Main definitions

* `NumberLayout`: The decisions of a format.
* `NumberLayout.write`: The text of a double in that format.
-/

namespace Fleet

/-- How a format writes a double. -/
structure NumberLayout where
  -- Least exponent of the leading digit written without an exponent, if there is one.
  least : Option Int
  -- Greatest exponent of the leading digit written without an exponent, if there is one.
  greatest : Option Int
  -- Whole numbers written without an exponent end in a point and a zero.
  wholeFraction : Bool
  -- The choice between two equally near numerals.
  tie : Tie
  -- The text of infinity, without its sign.
  infinite : String
  -- The text of the undefined number.
  undefined : String
  -- Infinity keeps its sign.
  signedInfinity : Bool

namespace NumberLayout

/-- That many zeros. -/
def zeros (n : Nat) : List Char := List.replicate n '0'

/-- Digits with a point and no exponent. -/
def positional (whole : Bool) (digits : List Char) (exponent : Int) : List Char :=
  let lead := exponent + digits.length
  if 0 ≤ exponent then
    digits ++ zeros exponent.toNat ++ if whole then ['.', '0'] else []
  else if 0 < lead then
    digits.take lead.toNat ++ ['.'] ++ digits.drop lead.toNat
  else ['0', '.'] ++ zeros (-lead).toNat ++ digits

/-- Digits with a point after the first and an exponent, its sign always written. -/
def scientific (digits : List Char) (lead : Int) : List Char :=
  digits.take 1 ++ (if digits.length ≤ 1 then [] else '.' :: digits.drop 1) ++
    ['e', if lead < 0 then '-' else '+'] ++ Nat.toDigits 10 lead.natAbs

/-- The text of a numeral. -/
def writeDecimal (layout : NumberLayout) (d : Decimal) : List Char :=
  let digits := Nat.toDigits 10 d.digits
  let lead := if d.digits = 0 then 0 else d.exponent + digits.length - 1
  let plain := layout.least.all (· ≤ lead) && layout.greatest.all (lead ≤ ·)
  if plain then positional layout.wholeFraction digits d.exponent else scientific digits lead

/-- The text of a double. -/
def write (layout : NumberLayout) (x : Binary64) : String :=
  let sign : List Char := if x.negative then ['-'] else []
  if x.isNaN then layout.undefined
  else if x.isFinite then
    String.ofList (sign ++ layout.writeDecimal (x.shortest layout.tie))
  else String.ofList ((if layout.signedInfinity then sign else []) ++ layout.infinite.toList)

end NumberLayout

end Fleet
