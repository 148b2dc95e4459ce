import Fleet.Json.Reader
import Fleet.Proofs.Framing
import Fleet.Proofs.Rounding

/-!
# Scalars are read back

A scalar is read by a rule for each kind, and what the rule takes is what was written, whatever
stands behind it. Strings need nothing of what follows, since they have a mark of their own at the
end. Every character is read back as its code, whichever of the three forms it has, and codes of
characters are never halves of a pair.

A number has no mark, and is read as far as its characters go. So what is behind it must not go
on with one, and this is wanted of every value, so that it is said once (`Stops`). It is a
stronger condition than that the text says which value it is, since a reader also knows the
capital letter of an exponent, which is never written.

The reader cuts a number into its parts again (`Parts`), and refuses what no writer writes: a
zero in front of other digits, a point or an exponent with nothing behind it. Of the texts of
numbers it is known so far what they are worth. That they have parts of this form is read off
their first two characters and the last one (`Proper`).

An integer is then itself. A double is not: its text is worth something else, a short numeral in
its interval, and it is rounding that leads from there back to the double (`covers_shortest`). This
takes a reader that rounds once, to the nearest double (`Numeral.nearest?`). One that takes two
steps may miss the double by one.

## Main definitions

* `Stops`: What may stand behind a value.
* `Parts`: The parts of a number that is read.
* `Numeral.nearest?`: What a number is worth if it is rounded once.
* `Proper`: The outward form of a number that is read.

## Theorems

* `stringBody_text`: A string is read back.
* `Parts.numeral?_eq`: A number is cut into its parts.
* `exists_parts`: A number with a value and a proper form has parts.
* `token?_text`, `token?_integer`, `token?_real`: Scalars are read back.
-/

namespace Fleet.Json

open NumberLayout

/-! ### Strings -/

/-- The code that is written in four digits behind a backslash and a letter. -/
def codeEscaped? : List Char → Option Nat
  | ['\\', 'u', a, b, c, d] => hexUnit? a b c d
  | _ => none

theorem codeEscaped_codeEscape : ∀ code < 0x20, codeEscaped? (codeEscape code) = some code := by
  decide

theorem stringBody_codeEscaped {cs : List Char} {code : Nat} (h : codeEscaped? cs = some code)
    (units : List Nat) (rest : List Char) :
    stringBody units (cs ++ rest) = stringBody (code :: units) rest := by
  unfold codeEscaped? at h
  split at h
  · simp only [List.cons_append, List.nil_append, stringBody, h, Option.bind_some]
  · cases h

/-- A character is read back as its code. -/
theorem stringBody_escape (units : List Nat) (c : Char) (rest : List Char) :
    stringBody units (escape c ++ rest) = stringBody (c.toNat :: units) rest := by
  unfold escape
  split
  · rfl
  · rfl
  · rfl
  · rfl
  · rfl
  · rfl
  · rfl
  · next hquote hbackslash _ _ _ _ _ =>
    split
    · next hcode => exact stringBody_codeEscaped (codeEscaped_codeEscape _ hcode) units rest
    · next hcode =>
      rw [List.singleton_append, stringBody.eq_def]
      split
      · next heq => exact absurd (List.cons.inj heq).1 hquote
      · next heq => exact absurd (List.cons.inj heq).1 hbackslash
      · next heq => exact absurd (List.cons.inj heq).1 hbackslash
      · next heq =>
        rcases List.cons.inj heq with ⟨rfl, rfl⟩
        rw [if_neg hcode]
      · next heq => cases heq

theorem stringBody_escapes (units : List Nat) (cs rest : List Char) :
    stringBody units (cs.flatMap escape ++ rest) =
      stringBody ((cs.map Char.toNat).reverse ++ units) rest := by
  induction cs generalizing units with
  | nil => rfl
  | cons c cs ih =>
      rw [List.flatMap_cons, List.append_assoc, stringBody_escape, ih, List.map_cons,
        List.reverse_cons, List.append_assoc, List.singleton_append]

/-- Codes of characters are no halves of pairs. -/
theorem joinPairs_map_toNat (cs : List Char) : joinPairs (cs.map Char.toNat) = some cs := by
  induction cs with
  | nil => rfl
  | cons c cs ih =>
      have hvalid : c.toNat < 0xD800 ∨ 0xDFFF < c.toNat ∧ c.toNat < 0x110000 := c.valid
      rw [List.map_cons, joinPairs.eq_def]
      simp only
      rw [if_neg (by omega), if_neg (by omega), ih, Option.map_some, Char.ofNat_toNat]

theorem stringBody_text (s : String) (rest : List Char) :
    stringBody [] (s.toList.flatMap escape ++ '"' :: rest) = some (text s, rest) := by
  rw [stringBody_escapes, List.append_nil, stringBody.eq_def]
  simp only [List.reverse_reverse, joinPairs_map_toNat, Option.elim_some, Function.comp_apply,
    String.ofList_toList]

/-! ### Numbers -/

/-- What stands behind a value: a mark that goes on or closes, or nothing. -/
def Stops (rest : List Char) : Prop := ∀ c ∈ rest.head?, c = ',' ∨ c = ']' ∨ c = '}'

/-- The parts of a number. -/
structure Parts (whole fraction power : List Char) : Prop where
  wholeDigits : AllDigits whole
  nonempty : whole ≠ []
  leading : ¬(1 < whole.length ∧ whole.head? = some '0')
  places : AllDigits fraction
  exponent : power = [] ∨ ∃ sign digits, power = 'e' :: sign :: digits ∧ (sign = '-' ∨ sign = '+') ∧
    AllDigits digits ∧ digits ≠ []

/-- An integer of any size, or the nearest double. -/
def Numeral.nearest? (n : Numeral) : Option Json :=
  if n.isWhole ∧ ¬(n.negative ∧ n.mantissa = 0) then some (integer n.signed)
  else
    some (real (Binary64.ofDecimal n.negative n.mantissa (n.exponent.getD 0 - n.places.length)))

/-- The number with the parts given. -/
def assembled (negative : Bool) (whole fraction power : List Char) : Numeral :=
  ⟨negative, whole, fraction, if power = [] then none else some (readPower power)⟩

theorem ofDigits_eq (digits : List Char) : ofDigits digits = Nat.ofDigitChars 10 digits 0 := by
  simp only [ofDigits, digitValue, Nat.ofDigitChars, Nat.mul_comm]

theorem digitRun_append {digits rest : List Char} (hdigits : AllDigits digits)
    (hrest : ∀ c ∈ rest.head?, c.isDigit = false) : digitRun (digits ++ rest) = (digits, rest) := by
  rcases takeWhile_append_of_head hdigits hrest with ⟨htake, hdrop⟩
  rw [digitRun, htake, hdrop]

section Parts

variable {whole fraction power rest : List Char}

theorem Stops.not_digit (h : Stops rest) : ∀ c ∈ rest.head?, c.isDigit = false := by
  intro c hc
  rcases h c hc with rfl | rfl | rfl <;> rfl

/-- Neither a point nor a digit is behind the parts before the exponent. -/
theorem Parts.power_head (h : Parts whole fraction power) (hrest : Stops rest) :
    ∀ c ∈ (power ++ rest).head?, c.isDigit = false ∧ c ≠ '.' := by
  intro c hc
  rcases h.exponent with rfl | ⟨sign, digits, rfl, _⟩
  · rcases hrest c hc with rfl | rfl | rfl <;> exact ⟨rfl, by decide⟩
  · cases hc
    exact ⟨rfl, by decide⟩

theorem Parts.fraction?_eq (h : Parts whole fraction power) (hrest : Stops rest) :
    fraction? ((if fraction.isEmpty then [] else '.' :: fraction) ++ (power ++ rest)) =
      some (fraction, power ++ rest) := by
  have hhead := h.power_head hrest
  cases hfraction : fraction with
  | nil =>
      rw [List.isEmpty_nil, if_pos rfl, List.nil_append]
      generalize power ++ rest = tail at hhead
      unfold fraction?
      split
      · exact absurd rfl (hhead '.' rfl).2
      · rfl
  | cons c cs =>
      rw [← hfraction]
      have hne : ¬fraction.isEmpty = true := by rw [hfraction]; exact Bool.false_ne_true
      rw [if_neg hne, List.cons_append, fraction?,
        digitRun_append h.places fun c hc => (hhead c hc).1]
      simp only [if_neg hne]

theorem exponentDigits?_append {digits : List Char} (hdigits : AllDigits digits)
    (hne : digits ≠ []) (hrest : Stops rest) (negative : Bool) :
    exponentDigits? negative (digits ++ rest) =
      some (some (if negative then -(Nat.ofDigitChars 10 digits 0 : Int)
        else Nat.ofDigitChars 10 digits 0), rest) := by
  have hempty : ¬digits.isEmpty = true := mt List.isEmpty_iff.mp hne
  rw [exponentDigits?, digitRun_append hdigits hrest.not_digit]
  simp only [if_neg hempty, ofDigits_eq]

theorem Parts.exponent?_eq (h : Parts whole fraction power) (hrest : Stops rest) :
    exponent? (power ++ rest) =
      some (if power = [] then none else some (readPower power), rest) := by
  rcases h.exponent with rfl | ⟨sign, digits, rfl, hsign, hdigits, hne⟩
  · rw [List.nil_append, if_pos rfl]
    cases rest with
    | nil => rfl
    | cons c rest =>
        rw [exponent?.eq_def]
        simp only
        rw [if_neg]
        rcases hrest c rfl with rfl | rfl | rfl <;> decide
  · rw [if_neg (List.cons_ne_nil _ _)]
    rcases hsign with rfl | rfl
    · exact exponentDigits?_append hdigits hne hrest true
    · exact exponentDigits?_append hdigits hne hrest false

/-- A number is cut into its parts, with a value that goes on or ends behind it. -/
theorem Parts.numeral?_eq (h : Parts whole fraction power) (hrest : Stops rest) (negative : Bool) :
    numeral? negative (withPoint whole fraction ++ power ++ rest) =
      some (assembled negative whole fraction power, rest) := by
  have hrun : digitRun (withPoint whole fraction ++ power ++ rest) =
      (whole, (if fraction.isEmpty then [] else '.' :: fraction) ++ (power ++ rest)) := by
    rw [withPoint, List.append_assoc, List.append_assoc]
    refine digitRun_append h.wholeDigits ?_
    split
    · exact fun c hc => (h.power_head hrest c hc).1
    · rintro c ⟨⟩
      rfl
  have hempty : ¬(whole.isEmpty = true ∨ 1 < whole.length ∧ whole.head? = some '0') :=
    not_or.mpr ⟨mt List.isEmpty_iff.mp h.nonempty, h.leading⟩
  rw [numeral?, hrun]
  simp only [if_neg hempty, h.fraction?_eq hrest, h.exponent?_eq hrest, Option.bind_eq_bind,
    Option.bind_some, assembled]
  rfl

theorem isWhole_assembled (negative : Bool) :
    (assembled negative whole fraction power).isWhole = true ↔ fraction = [] ∧ power = [] := by
  rw [Numeral.isWhole, Bool.and_eq_true, assembled, List.isEmpty_iff, Option.isNone_iff_eq_none]
  refine and_congr_right fun _ => ⟨fun h => ?_, fun h => if_pos h⟩
  by_contra hpower
  rw [if_neg hpower] at h
  cases h

theorem exponent_assembled (negative : Bool) :
    (assembled negative whole fraction power).exponent.getD 0 = readPower power := by
  simp only [assembled]
  split
  · next hnil =>
    rw [hnil]
    rfl
  · rfl

end Parts

/-! ### Texts of numbers -/

/-- No zero stands in front of other digits, and the last character is a digit. -/
structure Proper (text : List Char) : Prop where
  leading : ∀ d rest, text = '0' :: d :: rest → d.isDigit = false
  last : ∃ c ∈ text.getLast?, c.isDigit = true

/-- The parts of a number with a value. -/
theorem exists_parts {text : List Char} {v : ℚ} (h : Reads text v) (hproper : Proper text) :
    ∃ whole fraction power, text = withPoint whole fraction ++ power ∧
      Parts whole fraction power ∧ (Nat.ofDigitChars 10 (whole ++ fraction) 0 : ℚ) *
        (10 : ℚ) ^ (readPower power - (fraction.length : Int)) = v := by
  cases h with
  | @mk whole fraction power _ hwhole hne hfraction hpower hvalue =>
      refine ⟨whole, fraction, power, rfl, ⟨hwhole, hne, ?_, hfraction, ?_⟩, hvalue⟩
      · rintro ⟨hlength, hhead⟩
        rcases List.head?_eq_some_iff.mp hhead with ⟨ds, rfl⟩
        cases ds with
        | nil => exact absurd hlength (lt_irrefl 1)
        | cons d ds =>
            have hdigit := hproper.leading d _ rfl
            rw [hwhole d (List.mem_cons_of_mem _ List.mem_cons_self)] at hdigit
            exact absurd hdigit (by decide)
      · rcases hpower with hnil | ⟨sign, digits, rfl, hsign, hdigits⟩
        · exact Or.inl hnil
        · refine Or.inr ⟨sign, digits, rfl, hsign, hdigits, ?_⟩
          rintro rfl
          rcases hproper.last with ⟨c, hc, hdigit⟩
          rw [List.getLast?_append_of_ne_nil _ (List.cons_ne_nil _ _)] at hc
          cases hc
          rcases hsign with rfl | rfl <;> exact absurd hdigit (by decide)

theorem last_append {digits : List Char} (hdigits : AllDigits digits) (hne : digits ≠ [])
    (front : List Char) : ∃ c ∈ (front ++ digits).getLast?, c.isDigit = true := by
  rw [List.getLast?_append_of_ne_nil _ hne, List.getLast?_eq_some_getLast hne]
  exact ⟨_, rfl, hdigits _ (List.getLast_mem hne)⟩

theorem toDigits_head {n : Nat} (h : n ≠ 0) : (Nat.toDigits 10 n).head? ≠ some '0' := by
  induction n using Nat.strongRecOn with
  | ind n ih =>
      have hsmall : ∀ k < 10, k ≠ 0 → Nat.digitChar k ≠ '0' := by decide
      rw [Nat.toDigits_eq_if (by norm_num)]
      split
      · next hlt =>
        rw [List.head?_cons, ne_eq, Option.some.injEq]
        exact hsmall n hlt h
      · next hge =>
        rw [List.head?_append_of_ne_nil _ Nat.toDigits_ne_nil]
        exact ih (n / 10) (Nat.div_lt_self (Nat.pos_of_ne_zero h) (by norm_num)) (by omega)

theorem leading_of_head {text : List Char} (h : text.head? ≠ some '0') :
    ∀ d rest, text = '0' :: d :: rest → d.isDigit = false := fun _ _ heq => by
  rw [heq, List.head?_cons] at h
  exact absurd rfl h

theorem proper_positional {n : Nat} {exponent : Int} (hzero : n = 0 → exponent = 0)
    (whole : Bool) : Proper (positional whole (Nat.toDigits 10 n) exponent) := by
  rcases Nat.eq_zero_or_pos n with rfl | hpos
  · rw [hzero rfl]
    cases whole with
    | false => exact ⟨fun _ _ h => (nomatch h), '0', rfl, rfl⟩
    | true =>
        refine ⟨fun d rest h => ?_, '0', rfl, rfl⟩
        cases h
        rfl
  · have hhead := toDigits_head hpos.ne'
    have hdigits := allDigits_toDigits n
    have hne : Nat.toDigits 10 n ≠ [] := Nat.toDigits_ne_nil
    simp only [positional]
    split
    · refine ⟨leading_of_head ?_, ?_⟩
      · rw [List.append_assoc, List.head?_append_of_ne_nil _ hne]
        exact hhead
      · cases whole with
        | true =>
            rw [if_pos rfl, List.getLast?_append_of_ne_nil _ (List.cons_ne_nil _ _)]
            exact ⟨'0', rfl, rfl⟩
        | false =>
            rw [if_neg Bool.false_ne_true, List.append_nil]
            exact last_append (hdigits.append (allDigits_zeros _))
              (List.append_ne_nil_of_left_ne_nil hne _) []
    · split
      · next hexponent hlead =>
        have htake :
            (Nat.toDigits 10 n).take (exponent + (Nat.toDigits 10 n).length).toNat ≠ [] := by
          rw [ne_eq, List.take_eq_nil_iff]
          rintro (h | h)
          · omega
          · exact hne h
        refine ⟨leading_of_head ?_, last_append ?_ ?_ _⟩
        · rw [List.append_assoc, List.head?_append_of_ne_nil _ htake, List.head?_take,
            if_neg (by omega)]
          exact hhead
        · exact fun c hc => hdigits c (List.mem_of_mem_drop hc)
        · rw [ne_eq, List.drop_eq_nil_iff]
          omega
      · refine ⟨fun d rest h => ?_, last_append hdigits hne _⟩
        cases h
        rfl

theorem proper_scientific (n : Nat) (lead : Int) :
    Proper (scientific (Nat.toDigits 10 n) lead) := by
  have hne : Nat.toDigits 10 n ≠ [] := Nat.toDigits_ne_nil
  refine ⟨fun d rest h => ?_, last_append (allDigits_toDigits _) Nat.toDigits_ne_nil _⟩
  -- Behind the first digit stands the point or the exponent.
  rw [scientific] at h
  rcases List.exists_cons_of_ne_nil hne with ⟨c, cs, hcons⟩
  rw [hcons] at h
  split at h
  · cases h
    rfl
  · cases h
    rfl

/-- Texts of numerals have no zeros in front. -/
theorem proper_writeDecimal (layout : NumberLayout) {d : Decimal}
    (hzero : d.digits = 0 → d.exponent = 0) : Proper (layout.writeDecimal d) := by
  simp only [writeDecimal]
  generalize (if d.digits = 0 then 0
    else d.exponent + (Nat.toDigits 10 d.digits).length - 1) = lead
  split
  · exact proper_positional hzero _
  · exact proper_scientific _ _

/-! ### Tokens of scalars -/

theorem shortest_zero {x : Binary64} (hx : x.isFinite = true) (tie : Tie)
    (hzero : (x.shortest tie).digits = 0) : (x.shortest tie).exponent = 0 := by
  by_cases hm : x.scaled.1 = 0
  · rw [Binary64.shortest]
    simp only [hm, if_true]
  · exact absurd hzero (Binary64.shortest_covers hx hm tie).1

/-- A sign in front of a number is taken off. -/
theorem token?_signed (worth : Numeral → Option Json) {text rest : List Char}
    (hdigit : ∀ c ∈ text.head?, c.isDigit = true)
    (hne : text ≠ []) (negative : Bool) :
    token? worth ((if negative then ['-'] else []) ++ text ++ rest) =
      (numeral? negative (text ++ rest)).map fun read => (numberToken worth read.1, read.2) := by
  cases negative with
  | true => rfl
  | false =>
      rcases List.exists_cons_of_ne_nil hne with ⟨c, cs, rfl⟩
      have hc := hdigit c rfl
      rw [if_neg Bool.false_ne_true, List.nil_append, List.cons_append]
      unfold token?
      split
      all_goals first
        | rfl
        | next heq => exact absurd ((List.cons.inj heq).1 ▸ hc) (by decide)

theorem parts_toDigits (n : Nat) : Parts (Nat.toDigits 10 n) [] [] := by
  refine ⟨allDigits_toDigits n, Nat.toDigits_ne_nil, ?_, fun _ hc => absurd hc List.not_mem_nil,
    Or.inl rfl⟩
  rintro ⟨hlength, hhead⟩
  by_cases hzero : n = 0
  · rw [hzero] at hlength
    exact absurd hlength (by decide)
  · exact toDigits_head hzero hhead

section Tokens

variable {rest : List Char}

theorem token?_integer (n : Int) (hrest : Stops rest) :
    token? Numeral.nearest? (writeInteger n ++ rest) = some (.scalar (integer n), rest) := by
  have hsign : writeInteger n ++ rest =
      (if decide (n < 0) = true then ['-'] else []) ++ Nat.toDigits 10 n.natAbs ++ rest := by
    simp only [writeInteger, decide_eq_true_eq]
  have hform : Nat.toDigits 10 n.natAbs ++ rest =
      withPoint (Nat.toDigits 10 n.natAbs) [] ++ [] ++ rest := by
    simp only [withPoint, List.isEmpty_nil, if_true, List.append_nil]
  have hdigit : ∀ c ∈ (Nat.toDigits 10 n.natAbs).head?, c.isDigit = true := fun c hc =>
    allDigits_toDigits _ c (List.mem_of_mem_head? hc)
  have hmantissa : (assembled (decide (n < 0)) (Nat.toDigits 10 n.natAbs) [] []).mantissa =
      n.natAbs := by
    simp only [Numeral.mantissa, assembled, List.append_nil, ofDigits_eq,
      Nat.ofDigitChars_ten_toDigits]
  have hvalue : (assembled (decide (n < 0)) (Nat.toDigits 10 n.natAbs) [] []).signed = n := by
    rw [Numeral.signed, hmantissa]
    simp only [assembled, decide_eq_true_eq]
    split <;> omega
  have hnearest : (assembled (decide (n < 0)) (Nat.toDigits 10 n.natAbs) [] []).nearest? =
      some (integer n) := by
    rw [Numeral.nearest?, hmantissa, hvalue, if_pos]
    refine ⟨(isWhole_assembled _).mpr ⟨rfl, rfl⟩, ?_⟩
    simp only [assembled, decide_eq_true_eq]
    omega
  rw [hsign, token?_signed _ hdigit Nat.toDigits_ne_nil, hform,
    (parts_toDigits n.natAbs).numeral?_eq hrest, Option.map_some, numberToken, hnearest,
    Option.elim_some]

theorem ofMagnitude_eq (x : Binary64) : Binary64.ofMagnitude x.negative x.magnitude = x := by
  have hx := x.bits.toNat_lt
  rcases x with ⟨bits⟩
  simp only [Binary64.ofMagnitude, Binary64.negative, Binary64.magnitude, Nat.pow_eq,
    decide_eq_true_eq]
  congr 1
  refine UInt64.toNat_inj.mp ?_
  rw [UInt64.toNat_ofNat']
  norm_num at hx ⊢
  split <;> omega

/-- The value that is written for a double rounds to it. -/
theorem covers_shortest {x : Binary64} (hx : x.isFinite = true) (tie : Tie) :
    Binary64.Covers x.magnitude (x.shortest tie).value := by
  rcases value_shortest hx tie with ⟨hvalue, hmagnitude⟩ | ⟨_, hcovers⟩
  · rw [hvalue, hmagnitude]
    exact Binary64.covers_zero_of_le le_rfl (by positivity)
  · exact hcovers

theorem token?_real {x : Binary64} (hx : x.isFinite = true) (hrest : Stops rest) :
    token? Numeral.nearest? ((layout.write x).toList ++ rest) = some (.scalar (real x), rest) := by
  have hreads := reads_writeDecimal layout (x.shortest layout.tie)
  rcases exists_parts hreads (proper_writeDecimal layout (shortest_zero hx layout.tie)) with
    ⟨whole, fraction, power, htext, hparts, hvalue⟩
  rcases hreads.exists_digit with ⟨first, others, hfirst, hdigit⟩
  have hfractional : ¬(fraction = [] ∧ power = []) := by
    rintro ⟨rfl, rfl⟩
    have hdigits : ∀ c ∈ layout.writeDecimal (x.shortest layout.tie), c.isDigit = true := by
      rw [htext, withPoint, List.append_nil, List.isEmpty_nil, if_pos rfl, List.append_nil]
      exact hparts.wholeDigits
    rcases @writeDecimal_fractional layout rfl (x.shortest layout.tie) with hpoint | hpower
    · exact absurd (hdigits _ hpoint) (by decide)
    · exact absurd (hdigits _ hpower) (by decide)
  have hhead : ∀ c ∈ (layout.writeDecimal (x.shortest layout.tie)).head?, c.isDigit = true := by
    rw [hfirst]
    rintro c ⟨⟩
    exact hdigit
  have hcovers : Binary64.Covers x.magnitude
      ((Nat.ofDigitChars 10 (whole ++ fraction) 0 : Nat) *
        (10 : ℚ) ^ (readPower power - (fraction.length : Int))) :=
    hvalue ▸ covers_shortest hx layout.tie
  have hnearest : (assembled x.negative whole fraction power).nearest? = some (real x) := by
    rw [Numeral.nearest?, if_neg fun h => hfractional ((isWhole_assembled _).mp h.1),
      exponent_assembled, Numeral.mantissa, ofDigits_eq]
    simp only [assembled]
    rw [Binary64.ofDecimal_of_covers _ (of_decide_eq_true hx) hcovers, ofMagnitude_eq]
  rw [write_toList layout hx, token?_signed _ hhead (hfirst ▸ List.cons_ne_nil _ _), htext,
    hparts.numeral?_eq hrest, Option.map_some, numberToken, hnearest, Option.elim_some]

theorem token?_text (worth : Numeral → Option Json) (s : String) (rest : List Char) :
    token? worth (writeText s ++ rest) = some (.scalar (text s), rest) := by
  rw [writeText_append, token?, stringBody_text]
  rfl

end Tokens

end Fleet.Json
