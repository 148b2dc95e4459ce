import Fleet.Proofs.Neighbours
import Mathlib.Tactic.FieldSimp

/-!
# Shortest numerals

The shortest numeral of a double is searched for on seventeen grids, each ten times as fine as
the one before. What is found on a grid lies in the interval of the double, since that is
looked at. That something is found at all is arithmetic. The leading digit stands for a power of
ten that is not above the double, so the last grid is finer than the double's last bit is worth,
and the nearest of its points is in the interval. Just above a power of two the interval is
shorter on one side, and there the point above is near enough.

The leading digit is guessed with a rational number for the logarithm of two, and the guess is
off by one at most because the exponents of doubles are small (`zpow_guess_le`).

## Main definitions

* `Decimal.value`: The value of a numeral.

## Theorems

* `zpow_leadingExponent_le`: The leading digit stands for no more than the value.
* `onGrid_covers`: What is found on a grid lies in the interval.
* `exists_onGrid`: On a grid fine enough there is something to find.
* `shortest_covers`: The shortest numeral of a double rounds to it.
-/

namespace Fleet

/-- The value of a numeral. -/
def Decimal.value (d : Decimal) : ℚ := d.digits * (10 : ℚ) ^ d.exponent

theorem Decimal.value_stripZeros (turns : Nat) (d : Decimal) :
    (d.stripZeros turns).value = d.value ∧ ((d.stripZeros turns).digits = 0 ↔ d.digits = 0) := by
  induction turns generalizing d with
  | zero => exact ⟨rfl, Iff.rfl⟩
  | succ turns ih =>
      rw [stripZeros]
      split
      · next h =>
        rcases ih ⟨d.digits / 10, d.exponent + 1⟩ with ⟨hvalue, hzero⟩
        refine ⟨hvalue.trans ?_, hzero.trans ?_⟩
        · have hdigits : (d.digits : ℚ) = 10 * (d.digits / 10 : Nat) := by
            exact_mod_cast (Nat.mul_div_cancel' (Nat.dvd_of_mod_eq_zero h.2)).symm
          rw [value, value, hdigits]
          simp only
          rw [zpow_add_one₀ (by norm_num)]
          ring
        · simp only
          omega
      · exact ⟨rfl, Iff.rfl⟩

namespace Binary64

/-! ### Powers with exponents of either sign -/

theorem zpow_eq_div (b : ℚ) (z : Int) : b ^ z = b ^ z.toNat / b ^ (-z).toNat := by
  rcases Int.le_total 0 z with hz | hz
  · rw [Int.toNat_of_nonpos (by omega : -z ≤ 0), pow_zero, div_one, ← zpow_natCast,
      Int.toNat_of_nonneg hz]
  · rw [Int.toNat_of_nonpos hz, pow_zero, ← zpow_natCast, Int.toNat_of_nonneg (by omega), zpow_neg,
      one_div, inv_inv]

section Units

variable {a b : Nat} {p r : Int}

/-- What numbers in units of `10 ^ p` and of `2 ^ r` are divided by to have whole numbers. -/
def commonUnit (p r : Int) : ℚ := (10 : ℚ) ^ (-p).toNat * (2 : ℚ) ^ (-r).toNat

theorem commonUnit_pos (p r : Int) : 0 < commonUnit p r :=
  mul_pos (pow_pos (by norm_num) _) (pow_pos (by norm_num) _)

theorem cast_tens (a : Nat) (p r : Int) :
    ((a * (Nat.pow 10 p.toNat * Nat.pow 2 (-r).toNat) : Nat) : ℚ) =
      a * (10 : ℚ) ^ p * commonUnit p r := by
  have hpow : (10 : ℚ) ^ (-p).toNat ≠ 0 := pow_ne_zero _ (by norm_num)
  rw [zpow_eq_div, commonUnit, Nat.pow_eq, Nat.pow_eq]
  push_cast
  field_simp

theorem cast_twos (b : Nat) (p r : Int) :
    ((b * (Nat.pow 2 r.toNat * Nat.pow 10 (-p).toNat) : Nat) : ℚ) =
      b * (2 : ℚ) ^ r * commonUnit p r := by
  have hpow : (2 : ℚ) ^ (-r).toNat ≠ 0 := pow_ne_zero _ (by norm_num)
  rw [zpow_eq_div, commonUnit, Nat.pow_eq, Nat.pow_eq]
  push_cast
  field_simp

theorem tens_le_twos : a * (Nat.pow 10 p.toNat * Nat.pow 2 (-r).toNat) ≤
    b * (Nat.pow 2 r.toNat * Nat.pow 10 (-p).toNat) ↔ a * (10 : ℚ) ^ p ≤ b * (2 : ℚ) ^ r := by
  rw [← Nat.cast_le (α := ℚ), cast_tens, cast_twos, mul_le_mul_iff_left₀ (commonUnit_pos p r)]

theorem tens_lt_twos : a * (Nat.pow 10 p.toNat * Nat.pow 2 (-r).toNat) <
    b * (Nat.pow 2 r.toNat * Nat.pow 10 (-p).toNat) ↔ a * (10 : ℚ) ^ p < b * (2 : ℚ) ^ r := by
  rw [← Nat.cast_lt (α := ℚ), cast_tens, cast_twos, mul_lt_mul_iff_left₀ (commonUnit_pos p r)]

theorem twos_le_tens : b * (Nat.pow 2 r.toNat * Nat.pow 10 (-p).toNat) ≤
    a * (Nat.pow 10 p.toNat * Nat.pow 2 (-r).toNat) ↔ b * (2 : ℚ) ^ r ≤ a * (10 : ℚ) ^ p := by
  rw [← Nat.cast_le (α := ℚ), cast_tens, cast_twos, mul_le_mul_iff_left₀ (commonUnit_pos p r)]

theorem twos_lt_tens : b * (Nat.pow 2 r.toNat * Nat.pow 10 (-p).toNat) <
    a * (Nat.pow 10 p.toNat * Nat.pow 2 (-r).toNat) ↔ b * (2 : ℚ) ^ r < a * (10 : ℚ) ^ p := by
  rw [← Nat.cast_lt (α := ℚ), cast_tens, cast_twos, mul_lt_mul_iff_left₀ (commonUnit_pos p r)]

end Units

/-! ### Grids -/

section Grids

variable {tie : Tie} {i : Interval} {r p : Int} {d : Decimal}

/-- Whether a point of a grid is in the interval. -/
theorem has_scale_iff (i : Interval) (r p : Int) (k : Nat) :
    (i.scale (Nat.pow 2 r.toNat * Nat.pow 10 (-p).toNat)).has
        (k * (Nat.pow 10 p.toNat * Nat.pow 2 (-r).toNat)) = true ↔
      i.Covers r (k * (10 : ℚ) ^ p) := by
  rw [Interval.has, Interval.Covers, Interval.scale]
  cases i.closed with
  | true =>
      simp only [if_true, Bool.and_eq_true, decide_eq_true_eq]
      exact and_congr twos_le_tens tens_le_twos
  | false =>
      simp only [Bool.false_eq_true, if_false, Bool.and_eq_true, decide_eq_true_eq]
      exact and_congr twos_lt_tens tens_lt_twos

/-- The point of a grid that is not above the double. -/
def pointBelow (i : Interval) (r p : Int) : Nat :=
  i.value * (Nat.pow 2 r.toNat * Nat.pow 10 (-p).toNat) /
    (Nat.pow 10 p.toNat * Nat.pow 2 (-r).toNat)

theorem pointBelow_le (i : Interval) (r p : Int) :
    pointBelow i r p * (10 : ℚ) ^ p ≤ i.value * (2 : ℚ) ^ r :=
  tens_le_twos.mp (Nat.div_mul_le_self _ _)

theorem lt_pointBelow_succ (i : Interval) (r p : Int) :
    i.value * (2 : ℚ) ^ r < (pointBelow i r p + 1 : Nat) * (10 : ℚ) ^ p := by
  refine twos_lt_tens.mp (Nat.lt_mul_of_div_lt (Nat.lt_succ_self _) ?_)
  exact Nat.mul_pos (Nat.pow_pos (by norm_num)) (Nat.pow_pos (by norm_num))

/-- What is found on a grid lies in the interval. -/
theorem onGrid_covers (h : onGrid tie i r p = some d) : d.digits ≠ 0 ∧ i.Covers r d.value := by
  simp only [onGrid] at h
  split at h
  · next hboth =>
    cases h
    rcases hboth with ⟨⟨hne, hin⟩, hin'⟩
    simp only [Decimal.value]
    split
    · exact ⟨hne, (has_scale_iff i r p _).mp hin⟩
    · exact ⟨Nat.succ_ne_zero _, (has_scale_iff i r p _).mp hin'⟩
  · split at h
    · next hin =>
      cases h
      exact ⟨hin.1, (has_scale_iff i r p _).mp hin.2⟩
    · split at h
      · next hin =>
        cases h
        exact ⟨Nat.succ_ne_zero _, (has_scale_iff i r p _).mp hin⟩
      · cases h

/-- If one of the neighbours is in the interval, something is found. -/
theorem exists_onGrid (h : (pointBelow i r p ≠ 0 ∧ i.Covers r (pointBelow i r p * (10 : ℚ) ^ p)) ∨
    i.Covers r ((pointBelow i r p + 1 : Nat) * (10 : ℚ) ^ p)) :
    ∃ d, onGrid tie i r p = some d := by
  simp only [onGrid]
  split
  · exact ⟨_, rfl⟩
  · split
    · exact ⟨_, rfl⟩
    · next hnone =>
      split
      · exact ⟨_, rfl⟩
      · next hnone' =>
        rcases h with ⟨hne, hin⟩ | hin
        · exact absurd ⟨hne, (has_scale_iff i r p _).mpr hin⟩ hnone
        · exact absurd ((has_scale_iff i r p _).mpr hin) hnone'

/-- A search that reaches a grid with something to find finds something in the interval. -/
theorem search_covers {grids k : Nat} (hk : k < grids) (h : ∃ d, onGrid tie i r (p - k) = some d) :
    (search tie i r p grids).digits ≠ 0 ∧ i.Covers r (search tie i r p grids).value := by
  induction grids generalizing p k with
  | zero => exact absurd hk (Nat.not_lt_zero k)
  | succ grids ih =>
      rw [search]
      cases hhere : onGrid tie i r p with
      | some d => exact onGrid_covers hhere
      | none =>
          cases k with
          | zero =>
              rcases h with ⟨d, hd⟩
              rw [Nat.cast_zero, sub_zero, hhere] at hd
              cases hd
          | succ k =>
              refine ih (Nat.lt_of_succ_lt_succ hk) ?_
              rwa [show p - 1 - (k : Int) = p - ((k + 1 : Nat) : Int) by push_cast; ring]

end Grids

/-! ### The leading digit -/

theorem ten_pow_le_two_pow {m n : Nat} (h : 103 * m ≤ 31 * n) : (10 : ℚ) ^ m ≤ (2 : ℚ) ^ n := by
  refine (pow_le_pow_iff_left₀ (by positivity) (by positivity) (by norm_num : 31 ≠ 0)).mp ?_
  calc ((10 : ℚ) ^ m) ^ 31 = ((10 : ℚ) ^ 31) ^ m := pow_right_comm _ _ _
    _ ≤ ((2 : ℚ) ^ 103) ^ m := pow_le_pow_left₀ (by positivity) (by norm_num) m
    _ = (2 : ℚ) ^ (103 * m) := (pow_mul _ _ _).symm
    _ ≤ (2 : ℚ) ^ (31 * n) := pow_le_pow_right₀ (by norm_num) h
    _ = ((2 : ℚ) ^ n) ^ 31 := by rw [Nat.mul_comm, pow_mul]

theorem two_pow_le_ten_pow {m n : Nat} (h : 28 * m ≤ 93 * n) : (2 : ℚ) ^ m ≤ (10 : ℚ) ^ n := by
  refine (pow_le_pow_iff_left₀ (by positivity) (by positivity) (by norm_num : 93 ≠ 0)).mp ?_
  calc ((2 : ℚ) ^ m) ^ 93 = ((2 : ℚ) ^ 93) ^ m := pow_right_comm _ _ _
    _ ≤ ((10 : ℚ) ^ 28) ^ m := pow_le_pow_left₀ (by positivity) (by norm_num) m
    _ = (10 : ℚ) ^ (28 * m) := (pow_mul _ _ _).symm
    _ ≤ (10 : ℚ) ^ (93 * n) := pow_le_pow_right₀ (by norm_num) h
    _ = ((10 : ℚ) ^ n) ^ 93 := by rw [Nat.mul_comm, pow_mul]

/-- A power of ten with a guessed exponent, less one, is not above a power of two. -/
theorem zpow_guess_le {guess t : Int} (ht : -2000 ≤ t ∧ t ≤ 2000)
    (h : guess * 100000 ≤ t * 30103) : (10 : ℚ) ^ (guess - 1) ≤ (2 : ℚ) ^ t := by
  rcases Int.le_total 0 t with hpos | hneg
  · rcases Int.le_total 0 (guess - 1) with hguess | hguess
    · rcases Int.eq_ofNat_of_zero_le hpos with ⟨n, rfl⟩
      rcases Int.eq_ofNat_of_zero_le hguess with ⟨m, hm⟩
      rw [hm, zpow_natCast, zpow_natCast]
      exact ten_pow_le_two_pow (by omega)
    · exact (zpow_le_one_of_nonpos₀ (by norm_num) hguess).trans (one_le_zpow₀ (by norm_num) hpos)
  · rcases Int.eq_ofNat_of_zero_le (by omega : 0 ≤ -t) with ⟨n, hn⟩
    rcases Int.eq_ofNat_of_zero_le (by omega : 0 ≤ -(guess - 1)) with ⟨m, hm⟩
    rw [← neg_neg (guess - 1), ← neg_neg t, hm, hn, zpow_neg, zpow_neg, zpow_natCast,
      zpow_natCast]
    exact inv_anti₀ (by positivity) (two_pow_le_ten_pow (by omega))

/-- The leading digit stands for no more than the value. -/
theorem zpow_leadingExponent_le {value : Nat} {r : Int} (hvalue : value ≠ 0)
    (ht : -2000 ≤ (value.log2 : Int) + r ∧ (value.log2 : Int) + r ≤ 2000) :
    (10 : ℚ) ^ leadingExponent value r ≤ value * (2 : ℚ) ^ r := by
  have hleast : ∀ e : Int, Nat.pow 10 e.toNat * Nat.pow 2 (-r).toNat ≤
      value * Nat.pow 2 r.toNat * Nat.pow 10 (-e).toNat →
        (10 : ℚ) ^ e ≤ value * (2 : ℚ) ^ r := by
    intro e h
    rw [Nat.mul_assoc value, ← Nat.one_mul (Nat.pow 10 e.toNat * Nat.pow 2 (-r).toNat)] at h
    have hle := tens_le_twos.mp h
    rwa [Nat.cast_one, one_mul] at hle
  simp only [leadingExponent]
  split
  · next h => exact hleast _ (of_decide_eq_true h)
  · split
    · next h => exact hleast _ (of_decide_eq_true h)
    · refine (zpow_guess_le ht (Int.ediv_mul_le _ (by norm_num))).trans ?_
      rw [zpow_add₀ two_ne_zero, zpow_natCast]
      refine mul_le_mul_of_nonneg_right ?_ (zpow_pos two_pos r).le
      exact_mod_cast Nat.log2_self_le hvalue

/-! ### The last grid -/

theorem Interval.Covers.of_lt {i : Interval} {r : Int} {v : ℚ} (hlow : i.low * (2 : ℚ) ^ r < v)
    (hhigh : v < i.high * (2 : ℚ) ^ r) : i.Covers r v := by
  rw [Interval.Covers]
  split
  · exact ⟨hlow.le, hhigh.le⟩
  · exact ⟨hlow, hhigh⟩

/-- Where the grid is finer than the value is long, the double is not below its first point. -/
theorem pointBelow_ne_zero {i : Interval} {r p : Int}
    (hfine : (10 : ℚ) ^ p ≤ i.value * (2 : ℚ) ^ r) : pointBelow i r p ≠ 0 := by
  intro hzero
  have habove := lt_pointBelow_succ i r p
  rw [hzero, Nat.zero_add, Nat.cast_one, one_mul] at habove
  exact absurd hfine (not_le.mpr habove)

/-- On the last grid there is something to find. -/
theorem exists_lastGrid {m : Nat} {q p : Int} (hm : m ≠ 0) (hbound : m < Nat.pow 2 53)
    (hfine : (10 : ℚ) ^ p * 10 ^ 16 ≤ (interval m q).value * (2 : ℚ) ^ (q - 2)) (tie : Tie) :
    ∃ d, onGrid tie (interval m q) (q - 2) p = some d := by
  have hbelow := pointBelow_le (interval m q) (q - 2) p
  have habove := lt_pointBelow_succ (interval m q) (q - 2) p
  have hvalue : ((interval m q).value : ℚ) = 4 * m := by simp only [interval]; push_cast; ring
  have hhigh : ((interval m q).high : ℚ) = 4 * m + 2 := by simp only [interval]; push_cast; ring
  have hunit : (0 : ℚ) < (2 : ℚ) ^ (q - 2) := zpow_pos two_pos _
  have hstep : (0 : ℚ) < (10 : ℚ) ^ p := zpow_pos (by norm_num) p
  have hne : pointBelow (interval m q) (q - 2) p ≠ 0 :=
    pointBelow_ne_zero (le_trans (le_mul_of_one_le_right hstep.le (by norm_num)) hfine)
  have hlarge : (m : ℚ) * (2 : ℚ) ^ (q - 2) ≤ 2 ^ 53 * (2 : ℚ) ^ (q - 2) := by
    refine mul_le_mul_of_nonneg_right ?_ hunit.le
    exact_mod_cast hbound.le
  rw [hvalue] at hbelow habove hfine
  push_cast at habove
  -- The step of the grid is less than what the last bit is worth.
  have hless : (10 : ℚ) ^ p * 5 < (2 : ℚ) ^ (q - 2) * 19 := by
    norm_num at hlarge hfine
    linarith
  by_cases hspecial : m = Nat.pow 2 52 ∧ -1074 < q
  · have hpower : (m : ℚ) = 4503599627370496 := by
      rw [hspecial.1]
      norm_num
    have hlow : ((interval m q).low : ℚ) = 4 * m - 1 := by
      simp only [interval, if_pos hspecial]
      push_cast [Nat.cast_sub (by omega : 1 ≤ 4 * m)]
      ring
    refine exists_onGrid (Or.inr (.of_lt ?_ ?_))
    · rw [hlow]
      push_cast
      linarith
    · rw [hpower] at hfine hbelow
      rw [hhigh, hpower]
      push_cast
      linarith
  · have hlow : ((interval m q).low : ℚ) = 4 * m - 2 := by
      simp only [interval, if_neg hspecial]
      push_cast [Nat.cast_sub (by omega : 2 ≤ 4 * m)]
      ring
    refine exists_onGrid ?_
    rcases le_total (4 * m * (2 : ℚ) ^ (q - 2) -
      pointBelow (interval m q) (q - 2) p * (10 : ℚ) ^ p) ((10 : ℚ) ^ p / 2) with hnear | hfar
    · refine Or.inl ⟨hne, .of_lt ?_ ?_⟩
      · rw [hlow]
        linarith
      · rw [hhigh]
        linarith
    · refine Or.inr (.of_lt ?_ ?_)
      · rw [hlow]
        push_cast
        linarith
      · rw [hhigh]
        push_cast
        linarith

/-- The exponents of finite doubles are small. -/
theorem scaledMagnitude_bounds {bits : Nat} (h : bits < infinityBits) :
    (scaledMagnitude bits).1 < Nat.pow 2 53 ∧ -1074 ≤ (scaledMagnitude bits).2 ∧
      (scaledMagnitude bits).2 ≤ 971 := by
  have hfraction : bits % Nat.pow 2 52 < Nat.pow 2 52 :=
    Nat.mod_lt _ (Nat.pow_pos (Nat.succ_pos 1))
  have hexponent : bits / Nat.pow 2 52 < 2047 :=
    Nat.div_lt_of_lt_mul (h.trans_le (by decide))
  have hpow : Nat.pow 2 53 = Nat.pow 2 52 + Nat.pow 2 52 := rfl
  rw [scaledMagnitude, hpow]
  generalize Nat.pow 2 52 = P at hfraction hexponent ⊢
  generalize bits % P = fraction at hfraction ⊢
  generalize bits / P = exponent at hexponent ⊢
  split
  · exact ⟨hfraction.trans_le (Nat.le_add_left P P), by norm_num, by norm_num⟩
  · exact ⟨by simp only; omega, by simp only; omega, by simp only; omega⟩

/-- The shortest numeral of a double rounds to it. -/
theorem shortest_covers {x : Binary64} (hx : x.isFinite = true) (hzero : x.scaled.1 ≠ 0)
    (tie : Tie) : (x.shortest tie).digits ≠ 0 ∧ Covers x.magnitude (x.shortest tie).value := by
  rcases scaledMagnitude_bounds (of_decide_eq_true hx) with ⟨hm, hlow, hhigh⟩
  rw [← scaled_eq] at hm hlow hhigh
  rw [Covers, intervalOf, ← scaled_eq, shortest]
  generalize x.scaled = scaled at hzero hm hlow hhigh ⊢
  rcases scaled with ⟨m, q⟩
  simp only [if_neg hzero]
  have hvalue : (interval m q).value ≠ 0 := Nat.mul_ne_zero (by norm_num) hzero
  have hlog : (interval m q).value.log2 < 55 :=
    (Nat.log2_lt hvalue).mpr (Nat.mul_lt_mul_of_pos_left hm (by norm_num))
  have hleading := zpow_leadingExponent_le hvalue (r := q - 2) ⟨by omega, by omega⟩
  -- The seventeenth grid is the last.
  have hlast := exists_lastGrid (p := leadingExponent (interval m q).value (q - 2) - (16 : Nat))
    hzero hm (by
      rw [zpow_sub₀ (by norm_num), zpow_natCast, div_mul_cancel₀ _ (by positivity)]
      exact hleading) tie
  rcases search_covers (by norm_num : 16 < 17) hlast with ⟨hdigits, hcovers⟩
  rcases Decimal.value_stripZeros 20 (search tie (interval m q) (q - 2)
    (leadingExponent (interval m q).value (q - 2)) 17) with ⟨hsame, hnonzero⟩
  exact ⟨mt hnonzero.mp hdigits, hsame ▸ hcovers⟩

end Binary64

end Fleet
