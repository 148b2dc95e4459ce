import Fleet.Binary64.Layout
import Fleet.Proofs.Names
import Fleet.Proofs.ShortestNumeral

/-!
# Numbers from their text

However a format places the point and the exponent, the value of a numeral can be read back from
its text: the digits without the point are a number, and the exponent less the number of digits
behind the point is the power of ten (`readNumeral`). The digits themselves cannot be read back,
since zeros are added to some of them.

The value is enough, though. The shortest numeral of a double lies in its interval, and
intervals do not overlap, so doubles with the same text have the same magnitude. What is left of
a text is the sign. A numeral begins with a digit, so a sign in front is seen, and that of zero
is written as well.

## Main definitions

* `withPoint`: Digits with a point among them, unless there is nothing behind it.
* `readNumeral`: The value of the text of a numeral.

## Theorems

* `writeDecimal_eq`: Texts of numerals.
* `readNumeral_writeDecimal`: The value of a numeral is read back from its text.
* `write_injective`: Distinct finite doubles have distinct texts.
-/

namespace Fleet

/-! ### Texts of numerals -/

namespace NumberLayout

/-- All characters are digits. -/
def AllDigits (cs : List Char) : Prop := ∀ c ∈ cs, c.isDigit = true

theorem allDigits_toDigits (n : Nat) : AllDigits (Nat.toDigits 10 n) := fun _ hc =>
  Nat.isDigit_of_mem_toDigits (by decide) (by decide) hc

theorem allDigits_zeros (n : Nat) : AllDigits (zeros n) := fun c hc => by
  rw [List.eq_of_mem_replicate hc]
  rfl

theorem AllDigits.append {cs ds : List Char} (hcs : AllDigits cs) (hds : AllDigits ds) :
    AllDigits (cs ++ ds) := List.forall_mem_append.mpr ⟨hcs, hds⟩

/-- Digits with a point among them, unless there is nothing behind it. -/
def withPoint (whole fraction : List Char) : List Char :=
  whole ++ if fraction.isEmpty then [] else '.' :: fraction

/-- The value of what stands from the exponent on. -/
def readPower : List Char → Int
  | _ :: '-' :: digits => -(Nat.ofDigitChars 10 digits 0 : Int)
  | _ :: _ :: digits => Nat.ofDigitChars 10 digits 0
  | _ => 0

/-- The value of the text of a numeral. -/
def readNumeral (cs : List Char) : ℚ :=
  let mantissa := cs.takeWhile (· ≠ 'e')
  let whole := mantissa.takeWhile (· ≠ '.')
  let fraction := (mantissa.dropWhile (· ≠ '.')).tail
  (Nat.ofDigitChars 10 (whole ++ fraction) 0 : ℚ) *
    (10 : ℚ) ^ (readPower (cs.dropWhile (· ≠ 'e')) - (fraction.length : Int))

/-- What stands from the exponent on, if anything does. -/
def IsPower (power : List Char) : Prop :=
  power = [] ∨ ∃ sign digits, power = 'e' :: sign :: digits ∧ (sign = '-' ∨ sign = '+') ∧
    AllDigits digits

section Reading

variable {whole fraction power : List Char}

theorem withPoint_mem (hwhole : AllDigits whole) (hfraction : AllDigits fraction) :
    ∀ c ∈ withPoint whole fraction, c.isDigit = true ∨ c = '.' := by
  rw [withPoint]
  refine List.forall_mem_append.mpr ⟨fun c hc => Or.inl (hwhole c hc), ?_⟩
  split
  · exact fun c hc => absurd hc List.not_mem_nil
  · exact List.forall_mem_cons.mpr ⟨Or.inr rfl, fun c hc => Or.inl (hfraction c hc)⟩

/-- A text that goes on with a character that fails a test is cut there. -/
theorem takeWhile_append_of_head {p : Char → Bool} {cs rest : List Char}
    (hcs : ∀ c ∈ cs, p c = true) (hrest : ∀ c ∈ rest.head?, p c = false) :
    (cs ++ rest).takeWhile p = cs ∧ (cs ++ rest).dropWhile p = rest := by
  rw [List.takeWhile_append_of_pos hcs, List.dropWhile_append_of_pos hcs]
  cases rest with
  | nil => exact ⟨List.append_nil _, rfl⟩
  | cons c rest =>
      have hc : ¬p c = true := by
        rw [hrest c rfl]
        exact Bool.false_ne_true
      rw [List.takeWhile_cons_of_neg hc, List.dropWhile_cons_of_neg hc]
      exact ⟨List.append_nil _, rfl⟩

/-- The value of digits with a point and perhaps an exponent. -/
theorem readNumeral_withPoint (hwhole : AllDigits whole) (hfraction : AllDigits fraction)
    (hpower : IsPower power) : readNumeral (withPoint whole fraction ++ power) =
      (Nat.ofDigitChars 10 (whole ++ fraction) 0 : ℚ) *
        (10 : ℚ) ^ (readPower power - (fraction.length : Int)) := by
  have hne : ∀ {d c : Char}, d.isDigit = false → c.isDigit = true → decide (c ≠ d) = true := by
    intro d c hd hc
    refine decide_eq_true fun heq => ?_
    rw [heq, hd] at hc
    exact Bool.false_ne_true hc
  have hmantissa : ∀ c ∈ withPoint whole fraction, decide (c ≠ 'e') = true := fun c hc => by
    rcases withPoint_mem hwhole hfraction c hc with hdigit | rfl
    · exact hne (by decide) hdigit
    · decide
  have hexponent : ∀ c ∈ power.head?, decide (c ≠ 'e') = false := by
    rcases hpower with rfl | ⟨_, _, rfl, _⟩
    · exact fun c hc => nomatch hc
    · rintro _ ⟨⟩
      decide
  have hpoint : ∀ c ∈ (if fraction.isEmpty then [] else '.' :: fraction).head?,
      decide (c ≠ '.') = false := by
    split
    · exact fun c hc => nomatch hc
    · rintro _ ⟨⟩
      decide
  rcases takeWhile_append_of_head hmantissa hexponent with ⟨htake, hdrop⟩
  rcases takeWhile_append_of_head (fun c hc => hne (by decide) (hwhole c hc)) hpoint with
    ⟨htake', hdrop'⟩
  have htail : (if fraction.isEmpty then [] else '.' :: fraction).tail = fraction := by
    cases fraction <;> rfl
  simp only [readNumeral, htake, hdrop]
  rw [withPoint, htake', hdrop', htail]

end Reading

/-! ### Numerals of a format -/

/-- A text that is read as a numeral with a value. -/
inductive Reads : List Char → ℚ → Prop
  | mk {whole fraction power : List Char} {v : ℚ} : AllDigits whole → whole ≠ [] →
    AllDigits fraction → IsPower power →
    (Nat.ofDigitChars 10 (whole ++ fraction) 0 : ℚ) *
      (10 : ℚ) ^ (readPower power - (fraction.length : Int)) = v →
    Reads (withPoint whole fraction ++ power) v

theorem Reads.readNumeral_eq {text : List Char} {v : ℚ} (h : Reads text v) :
    readNumeral text = v := by
  cases h with
  | mk hwhole _ hfraction hpower hvalue =>
      rw [readNumeral_withPoint hwhole hfraction hpower, hvalue]

theorem ofDigitChars_zeros (n : Nat) (digits : List Char) (init : Nat) :
    Nat.ofDigitChars 10 (zeros n ++ digits) init = Nat.ofDigitChars 10 digits (10 ^ n * init) := by
  rw [Nat.ofDigitChars_append, zeros, Nat.ofDigitChars_replicate_zero]

theorem withPoint_of_ne_nil {whole fraction : List Char} (h : fraction ≠ []) :
    withPoint whole fraction = whole ++ ['.'] ++ fraction := by
  rw [withPoint, if_neg (mt List.isEmpty_iff.mp h), List.append_assoc]
  rfl

section Formats

variable {digits : List Char}

/-- Whole numbers: zeros take the place of the exponent. -/
theorem reads_whole (whole : Bool) (hdigits : AllDigits digits) (hne : digits ≠ []) (n : Nat) :
    Reads (digits ++ zeros n ++ if whole then ['.', '0'] else [])
      ((Nat.ofDigitChars 10 digits 0 : ℚ) * (10 : ℚ) ^ n) := by
  have hform : digits ++ zeros n ++ (if whole then ['.', '0'] else []) =
      withPoint (digits ++ zeros n) (if whole then zeros 1 else zeros 0) ++ [] := by
    rw [List.append_nil, withPoint]
    cases whole <;> rfl
  have hfraction : AllDigits (if whole then zeros 1 else zeros 0) := by
    split <;> exact allDigits_zeros _
  rw [hform]
  refine .mk (hdigits.append (allDigits_zeros n)) (List.append_ne_nil_of_left_ne_nil hne _)
    hfraction (Or.inl rfl) ?_
  rw [List.append_assoc, Nat.ofDigitChars_append, ofDigitChars_zeros]
  cases whole with
  | true =>
      have hone : Nat.ofDigitChars 10 (zeros 1) (10 ^ n * Nat.ofDigitChars 10 digits 0) =
          10 * (10 ^ n * Nat.ofDigitChars 10 digits 0) := rfl
      rw [if_pos rfl, hone]
      push_cast
      rw [show readPower [] - ((zeros 1).length : Int) = -1 from rfl, zpow_neg_one]
      field_simp
  | false =>
      have hnone : Nat.ofDigitChars 10 (zeros 0) (10 ^ n * Nat.ofDigitChars 10 digits 0) =
          10 ^ n * Nat.ofDigitChars 10 digits 0 := rfl
      rw [if_neg Bool.false_ne_true, hnone]
      push_cast
      rw [show readPower [] - ((zeros 0).length : Int) = 0 from rfl, zpow_zero]
      ring

/-- Numbers without an exponent. -/
theorem reads_positional (whole : Bool) (hdigits : AllDigits digits) (hne : digits ≠ [])
    (exponent : Int) : Reads (positional whole digits exponent)
      ((Nat.ofDigitChars 10 digits 0 : ℚ) * (10 : ℚ) ^ exponent) := by
  simp only [positional]
  split
  · next hexponent =>
    rw [← Int.toNat_of_nonneg hexponent, zpow_natCast, Int.toNat_natCast]
    exact reads_whole whole hdigits hne _
  · split
    · next hexponent hlead =>
      -- The point stands among the digits.
      have hlength : (exponent + digits.length).toNat < digits.length := by omega
      have hdrop : digits.drop (exponent + digits.length).toNat ≠ [] := fun h => by
        rw [List.drop_eq_nil_iff] at h
        omega
      have htake : digits.take (exponent + digits.length).toNat ≠ [] := fun h => by
        rw [List.take_eq_nil_iff] at h
        rcases h with h | h
        · omega
        · exact hne h
      rw [← withPoint_of_ne_nil hdrop, ← List.append_nil (withPoint _ _)]
      refine .mk (fun c hc => hdigits c (List.mem_of_mem_take hc)) htake
        (fun c hc => hdigits c (List.mem_of_mem_drop hc)) (Or.inl rfl) ?_
      rw [List.take_append_drop, List.length_drop]
      congr 2
      rw [show readPower [] = 0 from rfl]
      omega
    · next hexponent hlead =>
      -- Zeros stand between the point and the digits.
      have hfraction : zeros (-(exponent + digits.length)).toNat ++ digits ≠ [] :=
        List.append_ne_nil_of_right_ne_nil _ hne
      rw [show ['0', '.'] ++ zeros (-(exponent + digits.length)).toNat ++ digits =
        ['0'] ++ ['.'] ++ (zeros (-(exponent + digits.length)).toNat ++ digits) by simp,
        ← withPoint_of_ne_nil hfraction, ← List.append_nil (withPoint _ _)]
      refine .mk (allDigits_zeros 1) (List.cons_ne_nil _ _) ((allDigits_zeros _).append hdigits)
        (Or.inl rfl) ?_
      have hvalue : Nat.ofDigitChars 10 (['0'] ++
          (zeros (-(exponent + digits.length)).toNat ++ digits)) 0 =
            Nat.ofDigitChars 10 digits 0 := by
        rw [Nat.ofDigitChars_append, ofDigitChars_zeros]
        congr 1
      rw [hvalue, List.length_append, zeros, List.length_replicate]
      congr 2
      rw [show readPower [] = 0 from rfl]
      push_cast
      omega

/-- The digits of a natural number. -/
theorem reads_toDigits (n : Nat) : Reads (Nat.toDigits 10 n) n := by
  have hreads := reads_whole false (allDigits_toDigits n) Nat.toDigits_ne_nil 0
  rw [Nat.ofDigitChars_ten_toDigits, pow_zero, mul_one, if_neg Bool.false_ne_true,
    List.append_nil] at hreads
  exact (List.append_nil (Nat.toDigits 10 n)) ▸ hreads

/-- An exponent is read back from its text. -/
theorem readPower_eq (lead : Int) : readPower (['e', if lead < 0 then '-' else '+'] ++
    Nat.toDigits 10 lead.natAbs) = lead := by
  have hvalue : Nat.ofDigitChars 10 (Nat.toDigits 10 lead.natAbs) 0 = lead.natAbs :=
    Nat.ofDigitChars_ten_toDigits
  by_cases hneg : lead < 0
  · rw [if_pos hneg, show readPower (['e', '-'] ++ Nat.toDigits 10 lead.natAbs) =
      -(Nat.ofDigitChars 10 (Nat.toDigits 10 lead.natAbs) 0 : Int) from rfl, hvalue]
    omega
  · rw [if_neg hneg, show readPower (['e', '+'] ++ Nat.toDigits 10 lead.natAbs) =
      (Nat.ofDigitChars 10 (Nat.toDigits 10 lead.natAbs) 0 : Int) from rfl, hvalue]
    omega

/-- Numbers with an exponent. -/
theorem reads_scientific (hdigits : AllDigits digits) (hne : digits ≠ []) (lead : Int) :
    Reads (scientific digits lead)
      ((Nat.ofDigitChars 10 digits 0 : ℚ) * (10 : ℚ) ^ (lead - (digits.length - 1))) := by
  have hlength : 0 < digits.length := List.length_pos_iff.mpr hne
  have hform : scientific digits lead = withPoint (digits.take 1) (digits.drop 1) ++
      (['e', if lead < 0 then '-' else '+'] ++ Nat.toDigits 10 lead.natAbs) := by
    have hpoint : (if digits.length ≤ 1 then [] else '.' :: digits.drop 1) =
        if (digits.drop 1).isEmpty then [] else '.' :: digits.drop 1 :=
      if_congr (by rw [List.isEmpty_iff, List.drop_eq_nil_iff]) rfl rfl
    rw [scientific, hpoint, withPoint, List.append_assoc _ _ (Nat.toDigits 10 lead.natAbs)]
  rw [hform]
  refine .mk (fun c hc => hdigits c (List.mem_of_mem_take hc)) (fun h => ?_)
    (fun c hc => hdigits c (List.mem_of_mem_drop hc))
    (Or.inr ⟨_, _, rfl, ite_eq_or_eq _ _ _, allDigits_toDigits _⟩) ?_
  · rw [List.take_eq_nil_iff] at h
    exact h.elim (by norm_num) hne
  · rw [List.take_append_drop, readPower_eq, List.length_drop, Nat.cast_sub hlength, Nat.cast_one]

/-- The value of a numeral is read back from its text. -/
theorem reads_writeDecimal (layout : NumberLayout) (d : Decimal) :
    Reads (layout.writeDecimal d) d.value := by
  have hdigits := allDigits_toDigits d.digits
  have hne : Nat.toDigits 10 d.digits ≠ [] := Nat.toDigits_ne_nil
  have hvalue : (Nat.ofDigitChars 10 (Nat.toDigits 10 d.digits) 0 : ℚ) = d.digits :=
    congrArg Nat.cast Nat.ofDigitChars_ten_toDigits
  simp only [writeDecimal]
  generalize hlead : (if d.digits = 0 then 0
    else d.exponent + (Nat.toDigits 10 d.digits).length - 1) = lead
  split
  · have hreads := reads_positional layout.wholeFraction hdigits hne d.exponent
    rwa [hvalue] at hreads
  · have hreads := reads_scientific hdigits hne lead
    have hsame : (d.digits : ℚ) * (10 : ℚ) ^ (lead - ((Nat.toDigits 10 d.digits).length - 1)) =
        d.value := by
      rw [Decimal.value]
      split at hlead
      · next hzero => rw [hzero, Nat.cast_zero, zero_mul, zero_mul]
      · rw [← hlead]
        congr 2
        omega
    rwa [hvalue, hsame] at hreads

end Formats

/-! ### Texts of doubles -/

open Binary64

/-- A numeral begins with a digit. -/
theorem Reads.exists_digit {text : List Char} {v : ℚ} (h : Reads text v) :
    ∃ c rest, text = c :: rest ∧ c.isDigit = true := by
  cases h with
  | @mk whole fraction power _ hwhole hne _ _ _ =>
      cases whole with
      | nil => exact absurd rfl hne
      | cons c rest => exact ⟨c, _, rfl, hwhole c List.mem_cons_self⟩

/-- Without its sign a numeral is the same, and the sign is seen. -/
theorem signed_inj {s t : Bool} {text text' : List Char} {v v' : ℚ} (h : Reads text v)
    (h' : Reads text' v')
    (heq : (if s then ['-'] else []) ++ text = (if t then ['-'] else []) ++ text') :
    s = t ∧ text = text' := by
  rcases h.exists_digit with ⟨c, rest, rfl, hc⟩
  rcases h'.exists_digit with ⟨c', rest', rfl, hc'⟩
  have hminus : ∀ {c : Char}, c.isDigit = true → '-' ≠ c := by
    rintro c hc rfl
    exact absurd hc (by decide)
  cases s <;> cases t
  · exact ⟨rfl, heq⟩
  · exact absurd (List.cons.inj heq).1.symm (hminus hc)
  · exact absurd (List.cons.inj heq).1 (hminus hc')
  · exact ⟨rfl, (List.cons.inj heq).2⟩

/-- What the shortest numeral of a double is worth: nothing if the double is, and otherwise
    something that rounds to it. -/
theorem value_shortest {x : Binary64} (hx : x.isFinite = true) (tie : Tie) :
    (x.shortest tie).value = 0 ∧ x.magnitude = 0 ∨
      (x.shortest tie).value ≠ 0 ∧ Covers x.magnitude (x.shortest tie).value := by
  by_cases hzero : x.scaled.1 = 0
  · refine Or.inl ⟨?_, ?_⟩
    · rw [shortest]
      generalize x.scaled = scaled at hzero
      rcases scaled with ⟨m, q⟩
      simp only at hzero
      simp only [hzero, if_true, Decimal.value, Nat.cast_zero, zero_mul]
    · rcases exists_exponent_fraction x.magnitude with ⟨exponent, fraction, hfraction, heq⟩
      rw [scaled_eq, heq, scaledMagnitude_eq hfraction] at hzero
      have hpos : Nat.pow 2 52 ≠ 0 := by decide
      split at hzero
      · next hexponent => rw [heq, hexponent, show fraction = 0 from hzero]
      · exact absurd hzero (by simp only; omega)
  · rcases shortest_covers hx hzero tie with ⟨hdigits, hcovers⟩
    refine Or.inr ⟨mul_ne_zero (Nat.cast_ne_zero.mpr hdigits) (zpow_ne_zero _ (by norm_num)),
      hcovers⟩

theorem eq_of_magnitude {x y : Binary64} (hsign : x.negative = y.negative)
    (hmagnitude : x.magnitude = y.magnitude) : x = y := by
  have hx := x.bits.toNat_lt
  have hy := y.bits.toNat_lt
  rcases x with ⟨x⟩
  rcases y with ⟨y⟩
  congr 1
  refine UInt64.toNat_inj.mp ?_
  simp only [negative, magnitude, Nat.pow_eq, decide_eq_decide] at hsign hmagnitude
  norm_num at hsign hmagnitude hx hy
  omega

/-- The text of a finite double. -/
theorem write_toList (layout : NumberLayout) {x : Binary64} (hx : x.isFinite = true) :
    (layout.write x).toList =
      (if x.negative then ['-'] else []) ++ layout.writeDecimal (x.shortest layout.tie) := by
  have hnan : ¬x.isNaN = true := fun h =>
    absurd (of_decide_eq_true hx) (Nat.lt_asymm (of_decide_eq_true h))
  simp only [write, if_neg hnan, if_pos hx, String.toList_ofList]

/-- Distinct finite doubles have distinct texts. -/
theorem write_injective (layout : NumberLayout) {x y : Binary64} (hx : x.isFinite = true)
    (hy : y.isFinite = true) (h : layout.write x = layout.write y) : x = y := by
  have htext := congrArg String.toList h
  rw [write_toList layout hx, write_toList layout hy] at htext
  have hreads := reads_writeDecimal layout (x.shortest layout.tie)
  have hreads' := reads_writeDecimal layout (y.shortest layout.tie)
  rcases signed_inj hreads hreads' htext with ⟨hsign, hsame⟩
  have hvalue : (x.shortest layout.tie).value = (y.shortest layout.tie).value := by
    rw [← hreads.readNumeral_eq, hsame, hreads'.readNumeral_eq]
  refine eq_of_magnitude hsign ?_
  rcases value_shortest hx layout.tie with ⟨hzero, hmagnitude⟩ | ⟨hne, hcovers⟩
  · rcases value_shortest hy layout.tie with ⟨_, hmagnitude'⟩ | ⟨hne', _⟩
    · rw [hmagnitude, hmagnitude']
    · exact absurd (hvalue.symm.trans hzero) hne'
  · rcases value_shortest hy layout.tie with ⟨hzero', _⟩ | ⟨_, hcovers'⟩
    · exact absurd (hvalue.trans hzero') hne
    · exact covers_unique hcovers (hvalue ▸ hcovers')

/-! ### Characters of numbers -/

/-- The characters of numbers. -/
def numeric (c : Char) : Bool := c.isDigit || ['-', '+', '.', 'e'].contains c

theorem numeric_of_isDigit {c : Char} (h : c.isDigit = true) : numeric c = true := by
  rw [numeric, h, Bool.true_or]

theorem AllDigits.numeric {cs : List Char} (h : AllDigits cs) : ∀ c ∈ cs, numeric c = true :=
  fun c hc => numeric_of_isDigit (h c hc)

theorem Reads.numeric {text : List Char} {v : ℚ} (h : Reads text v) :
    ∀ c ∈ text, numeric c = true := by
  cases h with
  | mk hwhole _ hfraction hpower _ =>
      refine List.forall_mem_append.mpr ⟨fun c hc => ?_, ?_⟩
      · rcases withPoint_mem hwhole hfraction c hc with hdigit | rfl
        · exact numeric_of_isDigit hdigit
        · rfl
      · rcases hpower with rfl | ⟨sign, digits, rfl, hsign, hdigits⟩
        · exact fun c hc => absurd hc List.not_mem_nil
        · refine List.forall_mem_cons.mpr ⟨rfl, List.forall_mem_cons.mpr ⟨?_, hdigits.numeric⟩⟩
          rcases hsign with rfl | rfl <;> rfl

/-- Finite doubles are written in the characters of numbers. -/
theorem write_numeric (layout : NumberLayout) {x : Binary64} (hx : x.isFinite = true) :
    ∀ c ∈ (layout.write x).toList, numeric c = true := by
  rw [write_toList layout hx]
  refine List.forall_mem_append.mpr ⟨?_, (reads_writeDecimal layout _).numeric⟩
  split
  · exact List.forall_mem_cons.mpr ⟨rfl, fun c hc => absurd hc List.not_mem_nil⟩
  · exact fun c hc => absurd hc List.not_mem_nil

theorem point_mem_positional (digits : List Char) (exponent : Int) :
    '.' ∈ positional true digits exponent := by
  simp only [positional, if_true]
  split
  · exact List.mem_append_right _ List.mem_cons_self
  · split
    · exact List.mem_append_left _ (List.mem_append_right _ List.mem_cons_self)
    · exact List.mem_append_left _
        (List.mem_append_left _ (List.mem_cons_of_mem _ List.mem_cons_self))

theorem power_mem_scientific (digits : List Char) (lead : Int) : 'e' ∈ scientific digits lead :=
  List.mem_append_left _ (List.mem_append_right _ List.mem_cons_self)

theorem writeDecimal_fractional {layout : NumberLayout} (h : layout.wholeFraction = true)
    (d : Decimal) : '.' ∈ layout.writeDecimal d ∨ 'e' ∈ layout.writeDecimal d := by
  simp only [writeDecimal, h]
  generalize (if d.digits = 0 then 0
    else d.exponent + (Nat.toDigits 10 d.digits).length - 1) = lead
  split
  · exact Or.inl (point_mem_positional _ _)
  · exact Or.inr (power_mem_scientific _ _)

/-- Where whole numbers have a point, no double looks like an integer. -/
theorem write_fractional {layout : NumberLayout} (h : layout.wholeFraction = true)
    {x : Binary64} (hx : x.isFinite = true) :
    '.' ∈ (layout.write x).toList ∨ 'e' ∈ (layout.write x).toList := by
  rw [write_toList layout hx]
  exact (writeDecimal_fractional h _).imp (List.mem_append_right _) (List.mem_append_right _)

end NumberLayout

end Fleet
