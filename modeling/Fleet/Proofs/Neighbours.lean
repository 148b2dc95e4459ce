import Fleet.Binary64.Shortest
import Mathlib.Algebra.Order.Field.Basic
import Mathlib.Algebra.Order.Field.Power
import Mathlib.Tactic.Linarith
import Mathlib.Tactic.NormNum
import Mathlib.Tactic.Ring

/-!
# The reals around a double

The reals that round to a double form an interval, and these intervals do not overlap. So a
numeral that lies in the interval of a double belongs to that double and to no other, however
it was found.

The bits of a magnitude are a number, and the next number is the next magnitude. This goes
without a seam from the numbers near zero, which share one exponent, to the others, and from
each exponent to the next. Where one interval ends the next begins (`low_succ`), and which of
the two has the end is a matter of the last bit, which alternates.

## Main definitions

* `scaledMagnitude`: A magnitude as `m · 2 ^ q`.
* `Interval.Covers`: A real lies in an interval.
* `Covers`: A real rounds to a magnitude.

## Theorems

* `low_succ`: Where one interval ends the next begins.
* `covers_unique`: No real rounds to two magnitudes.
-/

namespace Fleet.Binary64

/-- A magnitude, given by its bits, as `m · 2 ^ q`. -/
def scaledMagnitude (bits : Nat) : Nat × Int :=
  if bits / Nat.pow 2 52 = 0 then (bits % Nat.pow 2 52, -1074)
  else (bits % Nat.pow 2 52 + Nat.pow 2 52, ((bits / Nat.pow 2 52 : Nat) : Int) - 1075)

theorem scaled_eq (x : Binary64) : x.scaled = scaledMagnitude x.magnitude := rfl

/-- A real lies in an interval in units of `2 ^ r`. -/
def Interval.Covers (i : Interval) (r : Int) (v : ℚ) : Prop :=
  if i.closed then i.low * (2 : ℚ) ^ r ≤ v ∧ v ≤ i.high * (2 : ℚ) ^ r
  else i.low * (2 : ℚ) ^ r < v ∧ v < i.high * (2 : ℚ) ^ r

/-- The interval of a magnitude. -/
def intervalOf (bits : Nat) : Interval := interval (scaledMagnitude bits).1 (scaledMagnitude bits).2

/-- The lower end of the interval of a magnitude. -/
def lowEnd (bits : Nat) : ℚ := (intervalOf bits).low * (2 : ℚ) ^ ((scaledMagnitude bits).2 - 2)

/-- The upper end of the interval of a magnitude. -/
def highEnd (bits : Nat) : ℚ := (intervalOf bits).high * (2 : ℚ) ^ ((scaledMagnitude bits).2 - 2)

/-- A real rounds to a magnitude. -/
def Covers (bits : Nat) (v : ℚ) : Prop :=
  (intervalOf bits).Covers ((scaledMagnitude bits).2 - 2) v

theorem Covers.le {bits : Nat} {v : ℚ} (h : Covers bits v) :
    lowEnd bits ≤ v ∧ v ≤ highEnd bits := by
  rw [Covers, Interval.Covers] at h
  split at h
  · exact h
  · exact ⟨h.1.le, h.2.le⟩

theorem Covers.lt {bits : Nat} {v : ℚ} (h : Covers bits v)
    (hodd : (scaledMagnitude bits).1 % 2 = 1) : lowEnd bits < v ∧ v < highEnd bits := by
  rw [Covers, Interval.Covers, if_neg] at h
  · exact h
  · simp only [intervalOf, interval, hodd, decide_eq_true_eq]
    exact one_ne_zero

/-! ### One magnitude after the other -/

/-- A magnitude with the exponent and the fraction given. -/
theorem scaledMagnitude_eq {exponent fraction : Nat} (h : fraction < Nat.pow 2 52) :
    scaledMagnitude (Nat.pow 2 52 * exponent + fraction) =
      if exponent = 0 then (fraction, -1074)
      else (fraction + Nat.pow 2 52, (exponent : Int) - 1075) := by
  have hdiv : (Nat.pow 2 52 * exponent + fraction) / Nat.pow 2 52 = exponent := by
    rw [Nat.mul_add_div (Nat.zero_lt_of_lt h), Nat.div_eq_of_lt h, Nat.add_zero]
  have hmod : (Nat.pow 2 52 * exponent + fraction) % Nat.pow 2 52 = fraction := by
    rw [Nat.mul_add_mod, Nat.mod_eq_of_lt h]
  rw [scaledMagnitude, hdiv, hmod]

theorem exists_exponent_fraction (bits : Nat) : ∃ exponent fraction, fraction < Nat.pow 2 52 ∧
    bits = Nat.pow 2 52 * exponent + fraction :=
  ⟨_, _, Nat.mod_lt _ (Nat.pow_pos (Nat.succ_pos 1)), (Nat.div_add_mod _ _).symm⟩

theorem scaledMagnitude_parity (bits : Nat) : (scaledMagnitude bits).1 % 2 = bits % 2 := by
  rcases exists_exponent_fraction bits with ⟨exponent, fraction, hfraction, rfl⟩
  have hpow : Nat.pow 2 52 = 2 * Nat.pow 2 51 := rfl
  rw [scaledMagnitude_eq hfraction, hpow, Nat.mul_assoc, Nat.mul_add_mod]
  split
  · rfl
  · exact Nat.add_mul_mod_self_left _ _ _

/-- Where one interval ends the next begins. -/
theorem low_succ (bits : Nat) : lowEnd (bits + 1) = highEnd bits := by
  rcases exists_exponent_fraction bits with ⟨exponent, fraction, hfraction, rfl⟩
  rw [lowEnd, highEnd, intervalOf, intervalOf, scaledMagnitude_eq hfraction]
  have hpos : 0 < Nat.pow 2 52 := Nat.pow_pos (Nat.succ_pos 1)
  generalize hP : Nat.pow 2 52 = P at hpos hfraction ⊢
  rcases Nat.lt_or_eq_of_le hfraction with hinside | hcarry
  · -- The exponent stays, and the fraction is the next.
    rw [Nat.add_assoc, ← hP, scaledMagnitude_eq (hP ▸ hinside), hP]
    by_cases hzero : exponent = 0
    · rw [if_pos hzero, if_pos hzero]
      simp only [interval, lt_irrefl, and_false, if_false]
      congr 2
    · rw [if_neg hzero, if_neg hzero]
      simp only [interval, hP]
      rw [if_neg (by omega)]
      congr 2
      omega
  · -- The exponent is the next, and the fraction starts again.
    have hnext : P * exponent + fraction + 1 = P * (exponent + 1) + 0 := by
      rw [Nat.add_assoc, show fraction + 1 = P from hcarry, Nat.mul_succ, Nat.add_zero]
    rw [hnext, ← hP, scaledMagnitude_eq (hP.symm ▸ hpos), hP, if_neg (Nat.succ_ne_zero exponent)]
    have hfraction : (fraction : ℚ) = P - 1 := by
      rw [← hcarry]
      push_cast
      ring
    by_cases hzero : exponent = 0
    · rw [if_pos hzero, hzero]
      simp only [interval, hP]
      rw [if_neg (by omega)]
      congr 2
      omega
    · rw [if_neg hzero]
      simp only [interval, hP]
      rw [if_pos (by omega), show ((exponent + 1 : Nat) : Int) - 1075 - 2 =
        (exponent : Int) - 1075 - 2 + 1 by push_cast; ring, zpow_add_one₀ two_ne_zero]
      push_cast [Nat.cast_sub (by omega : 1 ≤ 4 * (0 + P))]
      rw [hfraction]
      ring

theorem low_lt_high (bits : Nat) : lowEnd bits < highEnd bits := by
  rw [lowEnd, highEnd]
  have hunit : (0 : ℚ) < (2 : ℚ) ^ ((scaledMagnitude bits).2 - 2) := zpow_pos two_pos _
  refine mul_lt_mul_of_pos_right (Nat.cast_lt.mpr ?_) hunit
  simp only [intervalOf, interval]
  split <;> omega

theorem highEnd_strictMono : StrictMono highEnd :=
  strictMono_nat_of_lt_succ fun bits => by
    rw [← low_succ bits]
    exact low_lt_high (bits + 1)

theorem not_covers_of_lt {a b : Nat} (hlt : a < b) {v : ℚ} (ha : Covers a v) (hb : Covers b v) :
    False := by
  rcases Nat.exists_eq_add_of_lt hlt with ⟨k, rfl⟩
  have hlow := hb.le.1
  rw [low_succ] at hlow
  cases k with
  | succ k =>
      have hless : highEnd a < highEnd (a + (k + 1)) := highEnd_strictMono (by omega)
      exact absurd (hlow.trans ha.le.2) (not_le.mpr hless)
  | zero =>
      -- Both have the end between them, so both are even.
      rw [Nat.add_zero] at hlow hb
      rcases Nat.mod_two_eq_zero_or_one a with heven | hodd
      · have hodd' := (hb.lt (by rw [scaledMagnitude_parity]; omega)).1
        rw [low_succ] at hodd'
        exact absurd (hodd'.trans_le ha.le.2) (lt_irrefl _)
      · have hodd' := (ha.lt (by rw [scaledMagnitude_parity]; exact hodd)).2
        exact absurd (hlow.trans_lt hodd') (lt_irrefl _)

/-- No real rounds to two magnitudes. -/
theorem covers_unique {a b : Nat} {v : ℚ} (ha : Covers a v) (hb : Covers b v) : a = b := by
  rcases Nat.lt_trichotomy a b with hlt | heq | hlt
  · exact (not_covers_of_lt hlt ha hb).elim
  · exact heq
  · exact (not_covers_of_lt hlt hb ha).elim

end Fleet.Binary64
