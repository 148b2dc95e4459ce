import Fleet.Binary64.Basic

/-!
# Shortest decimal text of a double

Among the decimals that round to a given double, the ones with the fewest
digits are wanted, and of those the nearest. The reals that round to the double
form an interval around it, ends included when its fraction is even. For each
number of digits there is a grid of decimals with that many, and if any point
of a grid lies in the interval then one of the double's two neighbours on that
grid does, so it is enough to look at those two, grid by grid.

Where both neighbours are equally near, the choice is left to the caller.

## Main definitions

* `Decimal`: A decimal numeral.
* `Tie`: Which of two equally near numerals to take.
* `Binary64.shortest`: The shortest numeral that reads back as the double.
-/

namespace Fleet

/-- The value `digits · 10 ^ exponent`. -/
structure Decimal where
  -- The significant digits, as a number.
  digits : Nat
  -- The power of ten they are multiplied by.
  exponent : Int
  deriving DecidableEq

/-- Which of two equally near numerals to take. -/
inductive Tie
  -- The one whose last digit is even.
  | toEven
  -- The larger one.
  | up
  deriving DecidableEq

/-- The same value without zeros at the end of its digits; each turn removes one. -/
def Decimal.stripZeros : Nat → Decimal → Decimal
  | 0, d => d
  | turns + 1, d =>
    if d.digits ≠ 0 ∧ d.digits % 10 = 0 then stripZeros turns ⟨d.digits / 10, d.exponent + 1⟩
    else d

namespace Binary64

/-- The interval of reals that round to a double, over a common unit. -/
structure Interval where
  low : Nat
  -- The double itself.
  value : Nat
  high : Nat
  -- The ends round to the double too.
  closed : Bool

/-- Whether a point lies in the interval. -/
def Interval.has (i : Interval) (point : Nat) : Bool :=
  if i.closed then i.low ≤ point && point ≤ i.high else i.low < point && point < i.high

/-- The interval of `m · 2 ^ q` in units of `2 ^ (q - 2)`. Just above a power of two the
    neighbour below is only half as far as the one above. -/
def interval (m : Nat) (q : Int) : Interval where
  low := if m = Nat.pow 2 52 ∧ -1074 < q then 4 * m - 1 else 4 * m - 2
  value := 4 * m
  high := 4 * m + 2
  closed := m % 2 = 0

/-- Multiplies every point of an interval. -/
def Interval.scale (i : Interval) (factor : Nat) : Interval :=
  ⟨i.low * factor, i.value * factor, i.high * factor, i.closed⟩

/-- The best numeral on the grid of multiples of `10 ^ p`, for an interval in units of `2 ^ r`. -/
def onGrid (tie : Tie) (i : Interval) (r p : Int) : Option Decimal :=
  let unit := Nat.pow 10 p.toNat * Nat.pow 2 (-r).toNat
  let j := i.scale (Nat.pow 2 r.toNat * Nat.pow 10 (-p).toNat)
  let below := j.value / unit
  let hasBelow := below ≠ 0 ∧ j.has (below * unit)
  let hasAbove := j.has ((below + 1) * unit)
  let toBelow := j.value - below * unit
  let toAbove := (below + 1) * unit - j.value
  let takeBelow :=
    toBelow < toAbove || (toBelow == toAbove && tie == .toEven && below % 2 == 0)
  if hasBelow ∧ hasAbove then some ⟨if takeBelow then below else below + 1, p⟩
  else if hasBelow then some ⟨below, p⟩
  else if hasAbove then some ⟨below + 1, p⟩
  else none

/-- The exponent `e` with `10 ^ e ≤ value · 2 ^ r < 10 ^ (e + 1)`. -/
def leadingExponent (value : Nat) (r : Int) : Int :=
  let guess := ((value.log2 : Int) + r) * 30103 / 100000
  let atLeast (e : Int) : Bool :=
    Nat.pow 10 e.toNat * Nat.pow 2 (-r).toNat ≤ value * Nat.pow 2 r.toNat * Nat.pow 10 (-e).toNat
  if atLeast (guess + 1) then guess + 1 else if atLeast guess then guess else guess - 1

/-- The first grid with a hit, from the grid of `10 ^ p` to finer ones. -/
def search (tie : Tie) (i : Interval) (r p : Int) : Nat → Decimal
  | 0 => ⟨0, 0⟩
  | grids + 1 => (onGrid tie i r p).getD (search tie i r (p - 1) grids)

/-- The shortest numeral that reads back as the magnitude of a finite double, and the nearest of
    the shortest. Seventeen digits are always enough. -/
def shortest (tie : Tie) (x : Binary64) : Decimal :=
  let (m, q) := x.scaled
  if m = 0 then ⟨0, 0⟩
  else
    let i := interval m q
    (search tie i (q - 2) (leadingExponent i.value (q - 2)) 17).stripZeros 20

end Binary64

end Fleet
