/-!
# Double precision numbers

A double is its 64 bits: a sign, eleven bits of exponent and fifty-two of
fraction. Two doubles are equal when their bits are, so zero and negative zero
differ, which is what a fingerprint needs.

Rounding works on exact quotients of natural numbers. A finite magnitude
`m · 2 ^ q` with `m < 2 ^ 53` and `q ≥ -1074` is stored as
`(q + 1074) · 2 ^ 52 + m`, so the carry of a fraction that rounds up to
`2 ^ 53` lands in the exponent by itself, and overflow is the magnitude
reaching that of infinity.

## Main definitions

* `Binary64`: A double as its bits.
* `Binary64.ofRatio`: The double nearest to a quotient, ties to even.
* `Binary64.ofDecimal`: The double nearest to a decimal numeral.
* `Binary64.scaled`: A finite magnitude as `m · 2 ^ q`.
* `Binary64.mul`, `Binary64.div`: Products and quotients.
-/

namespace Fleet

/-- A double precision number, as its bits. -/
structure Binary64 where
  -- Sign, exponent and fraction from the highest bit down.
  bits : UInt64
  deriving DecidableEq, Inhabited

namespace Binary64

/-- The bits of positive infinity. -/
def infinityBits : Nat := 0x7FF0000000000000

/-- The bits without the sign. -/
def magnitude (x : Binary64) : Nat := x.bits.toNat % Nat.pow 2 63

/-- Whether the sign bit is set. -/
def negative (x : Binary64) : Bool := Nat.pow 2 63 ≤ x.bits.toNat

/-- Neither infinite nor undefined. -/
def isFinite (x : Binary64) : Bool := x.magnitude < infinityBits

/-- No number at all. -/
def isNaN (x : Binary64) : Bool := infinityBits < x.magnitude

/-- A double from its sign and the bits of its magnitude. -/
def ofMagnitude (negative : Bool) (magnitude : Nat) : Binary64 :=
  ⟨UInt64.ofNat (magnitude + if negative then Nat.pow 2 63 else 0)⟩

/-- Infinity of either sign. -/
def infinity (negative : Bool) : Binary64 := ofMagnitude negative infinityBits

/-- The undefined number. -/
def nan : Binary64 := ofMagnitude false (infinityBits + Nat.pow 2 51)

/-- A finite magnitude as `m · 2 ^ q`, given as `(m, q)`. -/
def scaled (x : Binary64) : Nat × Int :=
  let exponent : Nat := x.magnitude / Nat.pow 2 52
  let fraction : Nat := x.magnitude % Nat.pow 2 52
  if exponent = 0 then (fraction, -1074) else (fraction + Nat.pow 2 52, (exponent : Int) - 1075)

/-- The quotient rounded to the nearest natural number, a half to the even neighbour. -/
def roundRatio (num den : Nat) : Nat :=
  let floor : Nat := num / den
  let rest : Nat := num % den
  if 2 * rest < den then floor
  else if den < 2 * rest then floor + 1
  else floor + floor % 2

/-- `num / (den · 2 ^ q)` as a quotient of naturals. -/
def unscale (num den : Nat) (q : Int) : Nat × Nat :=
  (num * Nat.pow 2 (-q).toNat, den * Nat.pow 2 q.toNat)

/-- The bits of the magnitude nearest to `num / den`. -/
def magnitudeOfRatio (num den : Nat) : Nat :=
  if num = 0 then 0
  else
    -- The quotient lies between the powers `2 ^ (k - 1)` and `2 ^ (k + 1)`.
    let k : Int := (num.log2 : Int) - den.log2
    let q₀ := max (k - 53) (-1074)
    let (n₀, d₀) := unscale num den q₀
    let q := if n₀ / d₀ < Nat.pow 2 53 then q₀ else q₀ + 1
    let (n, d) := unscale num den q
    min ((q + 1074).toNat * Nat.pow 2 52 + roundRatio n d) infinityBits

/-- The double nearest to `num / den` with the sign given, ties to even. -/
def ofRatio (negative : Bool) (num den : Nat) : Binary64 :=
  ofMagnitude negative (magnitudeOfRatio num den)

/-- Number of decimal digits, zero having one. -/
def digitCount (n : Nat) : Nat := (Nat.toDigits 10 n).length

/-- The double nearest to `mantissa · 10 ^ exponent`, ties to even. Numerals that are beyond
    every finite double, or closer to zero than any, are settled by their length alone. -/
def ofDecimal (negative : Bool) (mantissa : Nat) (exponent : Int) : Binary64 :=
  if mantissa = 0 then ofMagnitude negative 0
  else
    let size := exponent + digitCount mantissa
    if 400 < size then infinity negative
    else if size < -400 then ofMagnitude negative 0
    else ofRatio negative (mantissa * Nat.pow 10 exponent.toNat) (Nat.pow 10 (-exponent).toNat)

/-- The double nearest to the product of two finite doubles. -/
def mul (x y : Binary64) : Binary64 :=
  let (m, q) := x.scaled
  let (n, r) := y.scaled
  let (num, den) := unscale (m * n) 1 (-(q + r))
  ofRatio (x.negative != y.negative) num den

/-- The double nearest to the quotient of two finite doubles, the second of which is not zero. -/
def div (x y : Binary64) : Binary64 :=
  let (m, q) := x.scaled
  let (n, r) := y.scaled
  let (num, den) := unscale m n (r - q)
  ofRatio (x.negative != y.negative) num den

/-- The double nearest to an integer. -/
def ofInt (n : Int) : Binary64 := ofRatio (n < 0) n.natAbs 1

end Binary64

end Fleet
