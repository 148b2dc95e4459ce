import Fleet.Json.Basic

/-!
# Numbers in JSON

What a number is worth is settled once it has been cut into its parts. Without
a point and an exponent it is an integer, if 64 bits hold it; negative zero is
none. Any other number is a double.

That double is not always the nearest one. As many digits as 64 bits hold are
taken as one number, and this is multiplied with a power of ten or divided by
one. Each of the two steps rounds, so a number of more than fifteen digits may
come out next to the double it was written for: `0.09090909090909091` does.
What is beyond every double is refused.

## Main definitions

* `Json.Numeral`: A number cut into its parts.
* `Json.Numeral.value?`: What it is worth.
-/

namespace Fleet.Json

/-- The value of a decimal digit. -/
def digitValue (c : Char) : Nat := c.toNat - '0'.toNat

/-- The number that decimal digits write. -/
def ofDigits (digits : List Char) : Nat := digits.foldl (fun n c => n * 10 + digitValue c) 0

/-- A number cut into its parts. -/
structure Numeral where
  negative : Bool
  -- The digits in front of the point, and those behind it.
  whole : List Char
  places : List Char
  exponent : Option Int

namespace Numeral

/-- Whether there is neither a point nor an exponent. -/
def isWhole (n : Numeral) : Bool := n.places.isEmpty && n.exponent.isNone

/-- The digits as one number. -/
def mantissa (n : Numeral) : Nat := ofDigits (n.whole ++ n.places)

/-- Its value as an integer. -/
def signed (n : Numeral) : Int := if n.negative then -n.mantissa else n.mantissa

/-- Whether 64 bits hold its value as an integer. -/
def fits (n : Numeral) : Bool :=
  if n.negative then 0 < n.mantissa && n.mantissa ≤ Nat.pow 2 63 else n.mantissa < Nat.pow 2 64

/-- Adds digits to a number up to the first that 64 bits do not hold. The digits that are left
    come with it. -/
def absorb (n : Nat) : List Char → Nat × List Char
  | [] => (n, [])
  | c :: rest =>
    let next := n * 10 + digitValue c
    if next < Nat.pow 2 64 then absorb next rest else (n, c :: rest)

/-- The number taken, and the power of ten it is to be multiplied with. Digits in front of the
    point that were not taken count as zeros. -/
def parts (n : Numeral) : Nat × Int :=
  let (front, skipped) := absorb 0 n.whole
  let (taken, left) := absorb front n.places
  (taken, skipped.length + left.length - n.places.length + n.exponent.getD 0)

/-- The double nearest to a power of ten. -/
def tenTo (k : Nat) : Binary64 := Binary64.ofDecimal false 1 k

/-- A double times a power of ten, rounded at each step. Exponents go up to 308 at a time, and a
    few divisions by the greatest power leave nothing of a double. -/
def scale? (x : Binary64) (exponent : Int) : Option Binary64 :=
  if exponent.natAbs ≤ 308 then
    let y := if 0 ≤ exponent then x.mul (tenTo exponent.natAbs) else x.div (tenTo exponent.natAbs)
    if y.isFinite then some y else none
  else if x.magnitude = 0 then some x
  else if 0 ≤ exponent then none
  else scale? (x.div (tenTo 308)) (exponent + 308)
termination_by exponent.natAbs

/-- An integer of 64 bits or a double, unless the number is beyond every double. -/
def value? (n : Numeral) : Option Json :=
  if n.isWhole ∧ n.fits then some (integer n.signed)
  else
    let (taken, exponent) := n.parts
    (scale? (Binary64.ofRatio false taken 1) exponent).map fun x =>
      real (Binary64.ofMagnitude n.negative x.magnitude)

end Numeral

end Fleet.Json
