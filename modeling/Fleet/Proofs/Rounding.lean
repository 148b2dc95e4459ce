import Fleet.Proofs.ShortestNumeral

/-!
# Rounding to the nearest double

A quotient is rounded in two steps. An exponent is chosen so that the quotient, in units of that
power of two, lies between `2 ^ 52` and `2 ^ 53`, and then it is rounded to a whole number of
units. The exponent is chosen by the lengths of the two numbers, which say what the quotient is
up to a factor of two to either side, and corrected by one look at the quotient itself.

That the result is the nearest double is not stated directly. The reals that round to a double
form an interval, and the intervals of two doubles have nothing in common, so it is enough that
the quotient lies in the interval of the result (`covers_ratioBits`). Three things may happen to
the number of units. It may stay below `2 ^ 52`, which only numbers with the least exponent do;
it may be in its range; or it may be rounded up to `2 ^ 53`, and then the exponent is the next,
with a unit twice as long.

The interval is a statement about any bits, also those from infinity on, so overflow needs no
case of its own: a real that rounds to a finite double rounds to nothing else.

## Main definitions

* `Near`: A number of units is the nearest to a real.
* `Chosen`: An exponent that suits a real.
* `ratioBits`: The bits of the magnitude nearest to a quotient, without a bound.

## Theorems

* `covers_ratioBits`: A quotient rounds to the bits that are computed for it.
* `ofDecimal_of_covers`: A numeral that rounds to a double is read as that double.
-/

namespace Fleet.Binary64

/-! ### Numbers of units -/

/-- A number is the nearest to a real, and of two equally near the even one. -/
structure Near (m : Nat) (v : ℚ) : Prop where
  low : (2 * m - 1 : ℚ) ≤ 2 * v
  high : 2 * v ≤ 2 * m + 1
  odd : m % 2 = 1 → (2 * m - 1 : ℚ) < 2 * v ∧ 2 * v < 2 * m + 1

/-- A quotient is rounded to the nearest number. -/
theorem near_roundRatio (num : Nat) {den : Nat} (hden : 0 < den) :
    Near (roundRatio num den) ((num : ℚ) / den) := by
  have hpos : (0 : ℚ) < den := Nat.cast_pos.mpr hden
  have hsplit : (num : ℚ) = den * (num / den : Nat) + (num % den : Nat) := by
    exact_mod_cast (Nat.div_add_mod num den).symm
  have hrest : num % den < den := Nat.mod_lt _ hden
  have hquotient : (num : ℚ) / den = (num / den : Nat) + (num % den : Nat) / den := by
    rw [hsplit, add_div, mul_div_cancel_left₀ _ hpos.ne']
  rw [hquotient, roundRatio]
  generalize num / den = floor
  generalize num % den = rest at hrest ⊢
  -- How the rest compares with a half.
  have hnonneg : (0 : ℚ) ≤ (rest : ℚ) / den := div_nonneg (Nat.cast_nonneg _) hpos.le
  have hone : (rest : ℚ) / den < 1 := (div_lt_one hpos).mpr (Nat.cast_lt.mpr hrest)
  have hbelow : 2 * rest < den → 2 * ((rest : ℚ) / den) < 1 := fun h => by
    rw [← mul_div_assoc, div_lt_one hpos]
    exact_mod_cast h
  have habove : den < 2 * rest → 1 < 2 * ((rest : ℚ) / den) := fun h => by
    rw [← mul_div_assoc, one_lt_div hpos]
    exact_mod_cast h
  have hhalf : 2 * rest = den → 2 * ((rest : ℚ) / den) = 1 := fun h => by
    rw [← mul_div_assoc, div_eq_one_iff_eq hpos.ne']
    exact_mod_cast h
  generalize (rest : ℚ) / den = part at hnonneg hone hbelow habove hhalf ⊢
  split
  · next h =>
    have hpart := hbelow h
    exact ⟨by linarith, by linarith, fun _ => ⟨by linarith, by linarith⟩⟩
  · split
    · next h =>
      have hpart := habove h
      exact ⟨by push_cast; linarith, by push_cast; linarith,
        fun _ => ⟨by push_cast; linarith, by push_cast; linarith⟩⟩
    · next h h' =>
      have hpart := hhalf (by omega)
      rcases Nat.mod_two_eq_zero_or_one floor with heven | hodd
      · rw [heven, Nat.add_zero]
        exact ⟨by linarith, by linarith, fun hodd => absurd (heven.symm.trans hodd) (by decide)⟩
      · rw [hodd]
        exact ⟨by push_cast; linarith, by push_cast; linarith, fun h => by omega⟩

/-- A real lies in the interval of the number of units nearest to it. Just above a power of two
    the interval is shorter, and the real must not be as far below. -/
theorem Near.covers_interval {m : Nat} {v : ℚ} (h : Near m v) (hnonneg : 0 ≤ v) (q : Int)
    (hpower : m = Nat.pow 2 52 → -1074 < q → (4 * m - 1 : ℚ) ≤ 4 * v) :
    (interval m q).Covers (q - 2) (v * (2 : ℚ) ^ q) := by
  have hunit : (0 : ℚ) < (2 : ℚ) ^ (q - 2) := zpow_pos two_pos _
  have hscale : v * (2 : ℚ) ^ q = 4 * v * (2 : ℚ) ^ (q - 2) := by
    rw [show q = q - 2 + 2 by ring, zpow_add₀ two_ne_zero, show q - 2 + 2 - 2 = q - 2 by ring]
    norm_num
    ring
  have hhigh : ((interval m q).high : ℚ) = 4 * m + 2 := by
    simp only [interval]
    push_cast
    ring
  rw [hscale, Interval.Covers, mul_le_mul_iff_left₀ hunit, mul_le_mul_iff_left₀ hunit,
    mul_lt_mul_iff_left₀ hunit, mul_lt_mul_iff_left₀ hunit, hhigh]
  rcases Nat.mod_two_eq_zero_or_one m with heven | hodd
  · rw [if_pos (show (interval m q).closed = true from decide_eq_true heven)]
    refine ⟨?_, by linarith [h.high]⟩
    simp only [interval]
    split
    · next hspecial =>
      push_cast [Nat.cast_sub (by rw [hspecial.1]; decide : 1 ≤ 4 * m)]
      exact hpower hspecial.1 hspecial.2
    · rcases Nat.eq_zero_or_pos m with rfl | hm
      · norm_num
        exact hnonneg
      · push_cast [Nat.cast_sub (by omega : 2 ≤ 4 * m)]
        linarith [h.low]
  · have hne : ¬(m = Nat.pow 2 52 ∧ -1074 < q) := fun hspecial => by
      rw [hspecial.1] at hodd
      exact absurd hodd (by decide)
    rcases h.odd hodd with ⟨hbelow, habove⟩
    rw [if_neg fun hclosed => by simp only [interval, decide_eq_true_eq] at hclosed; omega]
    refine ⟨?_, by linarith⟩
    simp only [interval, if_neg hne]
    push_cast [Nat.cast_sub (by omega : 2 ≤ 4 * m)]
    linarith

/-! ### Exponents -/

/-- An exponent suits a real in its units: there are as many units as fit, unless the exponent
    is the least. -/
structure Chosen (q : Int) (v : ℚ) : Prop where
  least : -1074 ≤ q
  high : v < 2 ^ 53
  low : -1074 < q → (2 : ℚ) ^ 52 ≤ v

/-- A real rounds to the bits with a suitable exponent and the nearest number of units. -/
theorem Chosen.covers {q : Int} {m : Nat} {v : ℚ} (hq : Chosen q v) (hm : Near m v)
    (hnonneg : 0 ≤ v) : Covers ((q + 1074).toNat * Nat.pow 2 52 + m) (v * (2 : ℚ) ^ q) := by
  have hleast := hq.least
  have hmost : m ≤ 2 ^ 53 := by
    have hless : (2 * m : ℚ) < 2 * 2 ^ 53 + 1 := by linarith [hm.low, hq.high]
    have hless' : 2 * m < 2 * 2 ^ 53 + 1 := by exact_mod_cast hless
    omega
  have hsmall : m < 2 ^ 52 → q = -1074 := fun hsmall => by
    by_contra hne
    have hless : (2 * 2 ^ 52 : ℚ) ≤ 2 * m + 1 := by linarith [hm.high, hq.low (by omega)]
    have hless' : 2 * 2 ^ 52 ≤ 2 * m + 1 := by exact_mod_cast hless
    omega
  have hpow : Nat.pow 2 52 = 2 ^ 52 := rfl
  rcases Nat.lt_or_ge m (2 ^ 52) with hm52 | hm52
  · -- Below the range the exponent is the least, and the bits are the number itself.
    have hbits : scaledMagnitude ((q + 1074).toNat * Nat.pow 2 52 + m) = (m, q) := by
      rw [hsmall hm52, show (-1074 + 1074 : Int).toNat = 0 from rfl, Nat.zero_mul,
        ← Nat.mul_zero (Nat.pow 2 52), scaledMagnitude_eq hm52, if_pos rfl]
    rw [Covers, intervalOf, hbits]
    exact hm.covers_interval hnonneg q fun heq => absurd (heq ▸ hm52) (lt_irrefl _)
  · rcases Nat.lt_or_eq_of_le hmost with hm53 | rfl
    · have hbits : scaledMagnitude ((q + 1074).toNat * Nat.pow 2 52 + m) = (m, q) := by
        rw [show (q + 1074).toNat * Nat.pow 2 52 + m =
          Nat.pow 2 52 * ((q + 1074).toNat + 1) + (m - 2 ^ 52) by rw [hpow]; omega,
          scaledMagnitude_eq (by rw [hpow]; omega), if_neg (Nat.succ_ne_zero _), hpow]
        exact Prod.ext (by simp only; omega) (by simp only; omega)
      rw [Covers, intervalOf, hbits]
      refine hm.covers_interval hnonneg q fun heq hlarge => ?_
      have hlow := hq.low hlarge
      rw [heq, hpow]
      push_cast
      linarith
    · -- Rounded up to the end of the range, the number has the next exponent.
      have hbits : scaledMagnitude ((q + 1074).toNat * Nat.pow 2 52 + 2 ^ 53) =
          (2 ^ 52, q + 1) := by
        rw [show (q + 1074).toNat * Nat.pow 2 52 + 2 ^ 53 =
          Nat.pow 2 52 * ((q + 1074).toNat + 2) + 0 by rw [hpow]; omega,
          scaledMagnitude_eq (by rw [hpow]; omega), if_neg (Nat.succ_ne_zero _), hpow]
        exact Prod.ext (by simp only; omega) (by simp only; omega)
      rw [Covers, intervalOf, hbits]
      have hlow := hm.low
      have hhigh := hq.high
      push_cast at hlow
      have hhalf : Near (2 ^ 52) (v / 2) := by
        refine ⟨by push_cast; linarith, by push_cast; linarith, fun hodd => ?_⟩
        exact absurd hodd (by decide)
      have hscale : v * (2 : ℚ) ^ q = v / 2 * (2 : ℚ) ^ (q + 1) := by
        rw [zpow_add_one₀ two_ne_zero]
        ring
      rw [hscale]
      refine hhalf.covers_interval (by linarith) (q + 1) fun _ _ => ?_
      push_cast
      linarith

/-- The exponent that is chosen for a quotient. -/
def ratioExponent (num den : Nat) : Int :=
  let q₀ := max ((num.log2 : Int) - den.log2 - 53) (-1074)
  if (unscale num den q₀).1 / (unscale num den q₀).2 < Nat.pow 2 53 then q₀ else q₀ + 1

/-- The bits of the magnitude nearest to a quotient, with no bound on the exponent. -/
def ratioBits (num den : Nat) : Nat :=
  let q := ratioExponent num den
  (q + 1074).toNat * Nat.pow 2 52 + roundRatio (unscale num den q).1 (unscale num den q).2

theorem magnitudeOfRatio_eq {num den : Nat} (h : num ≠ 0) :
    magnitudeOfRatio num den = min (ratioBits num den) infinityBits := by
  rw [magnitudeOfRatio, if_neg h]
  rfl

section Ratios

variable {num den : Nat}

theorem unscale_pos (hden : 0 < den) (q : Int) : 0 < (unscale num den q).2 :=
  Nat.mul_pos hden (Nat.pow_pos (by norm_num))

/-- A quotient in units of a power of two. -/
theorem cast_unscale (num den : Nat) (q : Int) :
    ((unscale num den q).1 : ℚ) / (unscale num den q).2 = num / den / (2 : ℚ) ^ q := by
  rw [unscale, zpow_eq_div, Nat.pow_eq, Nat.pow_eq]
  push_cast
  field_simp

/-- The lengths of two numbers say what their quotient is, up to a factor of two. -/
theorem ratio_bounds (hnum : num ≠ 0) (hden : 0 < den) :
    (2 : ℚ) ^ ((num.log2 : Int) - den.log2 - 1) ≤ num / den ∧
      (num : ℚ) / den < (2 : ℚ) ^ ((num.log2 : Int) - den.log2 + 1) := by
  have hpos : (0 : ℚ) < den := Nat.cast_pos.mpr hden
  have hnum_ge : (2 : ℚ) ^ num.log2 ≤ num := by exact_mod_cast Nat.log2_self_le hnum
  have hnum_lt : (num : ℚ) < (2 : ℚ) ^ (num.log2 + 1) := by
    exact_mod_cast Nat.lt_log2_self (n := num)
  have hden_ge : (2 : ℚ) ^ den.log2 ≤ den := by exact_mod_cast Nat.log2_self_le hden.ne'
  have hden_le : (den : ℚ) ≤ (2 : ℚ) ^ (den.log2 + 1) := by
    exact_mod_cast (Nat.lt_log2_self (n := den)).le
  constructor
  · rw [show (num.log2 : Int) - den.log2 - 1 = (num.log2 : Int) - ((den.log2 + 1 : Nat) : Int) by
      push_cast; ring, zpow_sub₀ two_ne_zero, zpow_natCast, zpow_natCast]
    exact div_le_div₀ (Nat.cast_nonneg _) hnum_ge hpos hden_le
  · rw [show (num.log2 : Int) - den.log2 + 1 = ((num.log2 + 1 : Nat) : Int) - den.log2 by
      push_cast; ring, zpow_sub₀ two_ne_zero, zpow_natCast, zpow_natCast]
    exact div_lt_div₀ hnum_lt hden_ge (by positivity) (by positivity)

/-- The exponent that is chosen suits the quotient. -/
theorem chosen_ratioExponent (hnum : num ≠ 0) (hden : 0 < den) :
    Chosen (ratioExponent num den) (num / den / (2 : ℚ) ^ ratioExponent num den) := by
  rcases ratio_bounds hnum hden with ⟨hlow, hhigh⟩
  simp only [ratioExponent]
  generalize hk : (num.log2 : Int) - den.log2 = k at hlow hhigh ⊢
  generalize hq : max (k - 53) (-1074) = q₀
  have hunit : ∀ q : Int, (0 : ℚ) < (2 : ℚ) ^ q := fun q => zpow_pos two_pos q
  have hleast : -1074 ≤ q₀ := by omega
  -- One look at the quotient itself.
  have hlook : (unscale num den q₀).1 / (unscale num den q₀).2 < Nat.pow 2 53 ↔
      (num : ℚ) / den / (2 : ℚ) ^ q₀ < 2 ^ 53 := by
    have hpos : (0 : ℚ) < (unscale num den q₀).2 := Nat.cast_pos.mpr (unscale_pos hden q₀)
    rw [← cast_unscale, div_lt_iff₀ hpos, Nat.div_lt_iff_lt_mul (unscale_pos hden q₀),
      Nat.pow_eq]
    exact_mod_cast Iff.rfl
  by_cases hfits : (num : ℚ) / den / (2 : ℚ) ^ q₀ < 2 ^ 53
  · rw [if_pos (hlook.mpr hfits)]
    refine ⟨hleast, hfits, fun hlarge => ?_⟩
    have hq₀ : q₀ + 52 = k - 1 := by omega
    rw [le_div_iff₀ (hunit q₀), ← zpow_natCast, ← zpow_add₀ two_ne_zero]
    exact (le_of_eq (by rw [← hq₀]; congr 1; push_cast; ring)).trans hlow
  · rw [if_neg (mt hlook.mp hfits)]
    have hsplit : (2 : ℚ) ^ (q₀ + 1) = 2 ^ q₀ * 2 := zpow_add_one₀ two_ne_zero q₀
    have hge : (2 : ℚ) ^ 53 ≤ num / den / (2 : ℚ) ^ q₀ := not_lt.mp hfits
    refine ⟨by omega, ?_, fun _ => ?_⟩
    · rw [div_lt_iff₀ (hunit _), ← zpow_natCast, ← zpow_add₀ two_ne_zero]
      exact hhigh.trans_le (zpow_le_zpow_right₀ one_le_two (by push_cast; omega))
    · rw [hsplit, ← div_div]
      linarith

/-- A quotient rounds to the bits that are computed for it. -/
theorem covers_ratioBits (hnum : num ≠ 0) (hden : 0 < den) :
    Covers (ratioBits num den) (num / den) := by
  have hpos : 0 < (unscale num den (ratioExponent num den)).2 :=
    unscale_pos hden (ratioExponent num den)
  have hnear := near_roundRatio (unscale num den (ratioExponent num den)).1 hpos
  rw [cast_unscale] at hnear
  have hnonneg : (0 : ℚ) ≤ num / den / (2 : ℚ) ^ ratioExponent num den := by positivity
  have hcovers := (chosen_ratioExponent hnum hden).covers hnear hnonneg
  rwa [div_mul_cancel₀ _ (zpow_pos two_pos _).ne'] at hcovers

/-- What is as small as the numerals that are settled by their length rounds to zero. -/
theorem covers_zero_of_le {v : ℚ} (hnonneg : 0 ≤ v) (h : v ≤ (10 : ℚ) ^ (-400 : Int)) :
    Covers 0 v := by
  have hzero : intervalOf 0 = ⟨0, 0, 2, true⟩ := rfl
  have hexponent : (scaledMagnitude 0).2 - 2 = -1076 := rfl
  rw [Covers, Interval.Covers, hzero, if_pos rfl, hexponent]
  refine ⟨by simpa using hnonneg, h.trans ?_⟩
  calc (10 : ℚ) ^ (-400 : Int) = ((10 : ℚ) ^ 400)⁻¹ := by
        rw [show (-400 : Int) = -((400 : Nat) : Int) from rfl, zpow_neg, zpow_natCast]
    _ ≤ ((2 : ℚ) ^ 1075)⁻¹ := inv_anti₀ (by positivity) (two_pow_le_ten_pow (by norm_num))
    _ = (2 : ℚ) ^ (-1076 + 1 : Int) := by
      rw [show (-1076 + 1 : Int) = -((1075 : Nat) : Int) from rfl, zpow_neg, zpow_natCast]
    _ = (2 : Nat) * (2 : ℚ) ^ (-1076 : Int) := by
      rw [zpow_add_one₀ two_ne_zero, Nat.cast_ofNat, mul_comm]

/-- A quotient that rounds to finite bits is given these bits. -/
theorem magnitudeOfRatio_of_covers {bits : Nat} (hfinite : bits < infinityBits) (hden : 0 < den)
    (h : Covers bits (num / den)) : magnitudeOfRatio num den = bits := by
  rcases Nat.eq_zero_or_pos num with rfl | hnum
  · rw [Nat.cast_zero, zero_div] at h
    rw [magnitudeOfRatio, if_pos rfl]
    exact covers_unique (covers_zero_of_le le_rfl (by positivity)) h
  · rw [magnitudeOfRatio_eq hnum.ne', covers_unique (covers_ratioBits hnum.ne' hden) h]
    exact Nat.min_eq_left hfinite.le

end Ratios

/-! ### Numerals -/

/-- The number of digits says between which powers of ten a number is. -/
theorem digitCount_bounds {n : Nat} (h : n ≠ 0) :
    10 ^ (digitCount n - 1) ≤ n ∧ n < 10 ^ digitCount n := by
  have hpos : 0 < digitCount n := Nat.length_toDigits_pos
  have hlength : ∀ k, 0 < k → (digitCount n ≤ k ↔ n < 10 ^ k) := fun k hk =>
    Nat.length_toDigits_le_iff (by norm_num) hk
  refine ⟨?_, (hlength _ hpos).mp le_rfl⟩
  by_contra hless
  rcases Nat.eq_zero_or_pos (digitCount n - 1) with hzero | hone
  · rw [hzero] at hless
    omega
  · have hle := (hlength _ hone).mpr (not_le.mp hless)
    omega

section Numerals

variable {bits mantissa : Nat} {exponent : Int}

/-- The length of a numeral says between which powers of ten its value is. -/
theorem numeral_bounds (h : mantissa ≠ 0) (exponent : Int) :
    (10 : ℚ) ^ (exponent + digitCount mantissa - 1) ≤ mantissa * (10 : ℚ) ^ exponent ∧
      mantissa * (10 : ℚ) ^ exponent < (10 : ℚ) ^ (exponent + digitCount mantissa) := by
  have hten : (10 : ℚ) ≠ 0 := by norm_num
  have hpos : 0 < digitCount mantissa := Nat.length_toDigits_pos
  have hunit : (0 : ℚ) < (10 : ℚ) ^ exponent := zpow_pos (by norm_num) _
  rcases digitCount_bounds h with ⟨hlow, hhigh⟩
  have hlow' : (10 : ℚ) ^ (digitCount mantissa - 1) ≤ mantissa := by exact_mod_cast hlow
  have hhigh' : (mantissa : ℚ) < (10 : ℚ) ^ digitCount mantissa := by exact_mod_cast hhigh
  constructor
  · rw [show exponent + digitCount mantissa - 1 =
      ((digitCount mantissa - 1 : Nat) : Int) + exponent by omega, zpow_add₀ hten, zpow_natCast]
    exact mul_le_mul_of_nonneg_right hlow' hunit.le
  · rw [add_comm exponent, zpow_add₀ hten, zpow_natCast]
    exact mul_lt_mul_of_pos_right hhigh' hunit

/-- No finite double is as great as the numerals that are settled by their length. -/
theorem highEnd_lt (hfinite : bits < infinityBits) : highEnd bits < (10 : ℚ) ^ 400 := by
  rcases scaledMagnitude_bounds hfinite with ⟨hm, _, hq⟩
  have hunit : (2 : ℚ) ^ ((scaledMagnitude bits).2 - 2) ≤ 2 ^ 969 := by
    rw [← zpow_natCast]
    exact zpow_le_zpow_right₀ one_le_two (by push_cast; omega)
  have hhigh : ((intervalOf bits).high : ℚ) < 2 ^ 56 := by
    have hless : (intervalOf bits).high < 2 ^ 56 := by
      simp only [intervalOf, interval]
      rw [Nat.pow_eq] at hm
      omega
    exact_mod_cast hless
  calc highEnd bits < 2 ^ 56 * (2 : ℚ) ^ ((scaledMagnitude bits).2 - 2) :=
        mul_lt_mul_of_pos_right hhigh (zpow_pos two_pos _)
    _ ≤ 2 ^ 56 * 2 ^ 969 := mul_le_mul_of_nonneg_left hunit (by positivity)
    _ = (2 : ℚ) ^ 1025 := by rw [← pow_add]
    _ ≤ (10 : ℚ) ^ 400 := two_pow_le_ten_pow (by norm_num)

/-- A numeral that rounds to a finite double is read as that double. -/
theorem ofDecimal_of_covers (negative : Bool) (hfinite : bits < infinityBits)
    (h : Covers bits (mantissa * (10 : ℚ) ^ exponent)) :
    ofDecimal negative mantissa exponent = ofMagnitude negative bits := by
  have hten : (1 : ℚ) < 10 := by norm_num
  rw [ofDecimal]
  by_cases hzero : mantissa = 0
  · rw [if_pos hzero]
    rw [hzero, Nat.cast_zero, zero_mul] at h
    rw [covers_unique h (covers_zero_of_le le_rfl (by positivity))]
  · rcases numeral_bounds hzero exponent with ⟨hlow, hhigh⟩
    rw [if_neg hzero]
    simp only
    split
    · next hlarge =>
      have hpower : (10 : ℚ) ^ 400 ≤ (10 : ℚ) ^ (exponent + digitCount mantissa - 1) := by
        rw [← zpow_natCast]
        exact zpow_le_zpow_right₀ hten.le (by push_cast; omega)
      exact absurd (hpower.trans (hlow.trans h.le.2)) (not_le.mpr (highEnd_lt hfinite))
    · split
      · next hsmall =>
        have hpower : (10 : ℚ) ^ (exponent + digitCount mantissa) ≤ (10 : ℚ) ^ (-400 : Int) :=
          zpow_le_zpow_right₀ hten.le (by omega)
        rw [covers_unique h (covers_zero_of_le (by positivity) (hhigh.le.trans hpower))]
      · have hratio : ((mantissa * Nat.pow 10 exponent.toNat : Nat) : ℚ) /
            (Nat.pow 10 (-exponent).toNat : Nat) = mantissa * (10 : ℚ) ^ exponent := by
          rw [zpow_eq_div, Nat.pow_eq, Nat.pow_eq]
          push_cast
          rw [mul_div_assoc]
        have hpos : 0 < Nat.pow 10 (-exponent).toNat := Nat.pow_pos (by norm_num)
        rw [ofRatio, magnitudeOfRatio_of_covers hfinite hpos (hratio ▸ h)]

end Numerals

end Fleet.Binary64
