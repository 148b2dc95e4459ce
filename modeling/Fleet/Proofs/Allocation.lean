import Fleet.Numbering
import Mathlib.Data.List.MinMax
import Mathlib.Order.Nat

/-!
# Numbers for new containers

New containers are given numbers in three steps, each of which can fail: the numbers that
are taken are read, the highest of them is looked for, and the new ones have to fit in
between there and the bound. What is wanted of the whole mentions neither a running maximum
nor an order of checks. So each step is first put as a question about the list, answered
by the first container with some property: whether one has no number (`numbered_eq`), and
whether one has the greatest number there is (`next_eq`). Whoever is to blame for a failure
is then whoever the question finds (`allocate_eq`).

The highest number is where the two views meet. The search keeps the first of several
entries with the highest number, and therefore it stands behind lower ones only
(`highest_cases`).

## Main definitions

* `Summary.number?`, `Summary.number`: The number of a container, if it has one.
* `Numbering.top`: The highest of some numbers.
* `Numbering.aboveAll`: The number right above those of some containers.

## Theorems

* `Numbering.numbered_eq`: What comes of reading numbers.
* `Numbering.next_eq`: What comes of looking for the next number.
* `Numbering.allocate_eq`: What comes of asking for new numbers.
* `Numbering.numbers_allocated`: When new numbers are found, what they are, and who is to blame if
  they are not.
-/

namespace Fleet

/-- The number on the label of a container, if one can be read there. -/
def Summary.number? (c : Summary) : Option Nat := Numbering.parse? (Numbering.labelOf c)

/-- The number of a container, zero if it has none. -/
def Summary.number (c : Summary) : Nat := c.number?.getD 0

theorem Summary.number?_eq {c : Summary} (h : c.number? ≠ none) : c.number? = some c.number := by
  rcases Option.ne_none_iff_exists'.mp h with ⟨number, hnumber⟩
  rw [Summary.number, hnumber, Option.getD_some]

theorem Summary.number_lt_bound {c : Summary} {number : Nat} (h : c.number? = some number) :
    number < Numbering.bound := by
  have hfilter := Option.filter_eq_some_iff.mp h
  simpa using hfilter.2

namespace Numbering

variable {containers : List Summary}

/-! ### Reading numbers -/

theorem find?_unnumbered :
    containers.find? (·.number?.isNone) = none ↔ ∀ c ∈ containers, c.number? ≠ none := by
  simp only [List.find?_eq_none, Option.isNone_iff_eq_none, ne_eq]

theorem numberOf_of_some {c : Summary} {number : Nat} (h : c.number? = some number) :
    numberOf c = .ok number := by
  rw [Summary.number?] at h
  rw [numberOf, h]

theorem numberOf_of_none {c : Summary} (h : c.number? = none) :
    numberOf c = .error (.malformed c.name (labelOf c)) := by
  rw [Summary.number?] at h
  rw [numberOf, h]

/-- A number can be read if there is one. -/
theorem numberOf_eq_ok_iff {c : Summary} {number : Nat} :
    numberOf c = .ok number ↔ c.number? = some number := by
  cases hnumber : c.number? with
  | none =>
      rw [numberOf_of_none hnumber]
      exact iff_of_false (fun hok => by cases hok) fun hsome => by cases hsome
  | some parsed => rw [numberOf_of_some hnumber, Except.ok.injEq, Option.some.injEq]

theorem numbered_cons (c : Summary) (rest : List Summary) :
    numbered (c :: rest) = do
      let entry ← (numberOf c).map (·, c)
      let entries ← numbered rest
      return entry :: entries := List.mapM_cons

/-- Numbers are read if every container has one, and else the first one without is named. -/
theorem numbered_eq (containers : List Summary) : numbered containers =
    match containers.find? (·.number?.isNone) with
    | some c => .error (.malformed c.name (labelOf c))
    | none => .ok (containers.map fun c => (c.number, c)) := by
  induction containers with
  | nil => rfl
  | cons c rest ih =>
      rw [numbered_cons, ih]
      cases hc : c.number? with
      | none =>
          rw [List.find?_cons_of_pos (by rw [hc]; rfl), numberOf_of_none hc]
          rfl
      | some number =>
          have hnumber : c.number = number := by rw [Summary.number, hc, Option.getD_some]
          rw [List.find?_cons_of_neg (by rw [hc]; exact Bool.false_ne_true), numberOf_of_some hc,
            List.map_cons, hnumber]
          cases rest.find? (·.number?.isNone) with
          | none => rfl
          | some other => rfl

/-! ### The highest number -/

/-- The highest of some numbers, zero if there are none. -/
def top (numbers : List Nat) : Nat := numbers.foldr max 0

theorem le_top {numbers : List Nat} {n : Nat} (h : n ∈ numbers) : n ≤ top numbers :=
  List.le_max_of_le h (Nat.le_refl n)

theorem top_le {numbers : List Nat} {bound : Nat} (h : ∀ n ∈ numbers, n ≤ bound) :
    top numbers ≤ bound := List.max_le_of_forall_le numbers bound h

/-- The highest number stands behind lower ones only, and in front of none that is higher. -/
theorem highest_cases (entries : List (Nat × Summary)) :
    entries = [] ∨ ∃ before entry after, entries = before ++ entry :: after ∧
      highest entries = some entry ∧ (∀ e ∈ before, e.1 < entry.1) ∧
        ∀ e ∈ after, e.1 ≤ entry.1 := by
  induction entries with
  | nil => exact Or.inl rfl
  | cons first rest ih =>
      right
      rcases ih with rfl | ⟨before, entry, after, rfl, hhighest, hbefore, hafter⟩
      · exact ⟨[], first, [], rfl, rfl, nofun, nofun⟩
      by_cases hlt : first.1 < entry.1
      · refine ⟨first :: before, entry, after, rfl, ?_, ?_, hafter⟩
        · simp only [highest, hhighest, if_pos hlt]
        · exact List.forall_mem_cons.mpr ⟨hlt, hbefore⟩
      · refine ⟨[], first, before ++ entry :: after, rfl, ?_, nofun, fun e he => ?_⟩
        · simp only [highest, hhighest, if_neg hlt]
        · have hle : e.1 ≤ entry.1 := by
            rcases List.mem_append.mp he with he | he
            · exact Nat.le_of_lt (hbefore e he)
            · exact (List.mem_cons.mp he).elim (fun heq => heq ▸ Nat.le_refl _) (hafter e)
          omega

/-- The number right above those of some containers. -/
def aboveAll (containers : List Summary) : Nat := top (containers.map (·.number)) + 1

theorem number_lt_aboveAll {c : Summary} (hc : c ∈ containers) : c.number < aboveAll containers :=
  Nat.lt_succ_of_le (le_top (List.mem_map_of_mem hc))

/-- There is a number above those of some containers unless one of them has the greatest. -/
theorem aboveAll_lt_bound_iff :
    aboveAll containers < bound ↔ ∀ c ∈ containers, c.number? ≠ some (bound - 1) := by
  constructor
  · intro hroom c hc hlast
    have hlt := number_lt_aboveAll hc
    rw [Summary.number, hlast, Option.getD_some] at hlt
    omega
  · intro hnone
    have hleast : ∀ n ∈ containers.map (·.number), n ≤ bound - 2 := by
      refine List.forall_mem_map.mpr fun c hc => ?_
      cases hnumber : c.number? with
      | none =>
          rw [Summary.number, hnumber, Option.getD_none]
          exact Nat.zero_le _
      | some number =>
          have hlt := Summary.number_lt_bound hnumber
          have hne : number ≠ bound - 1 := fun heq => hnone c hc (heq ▸ hnumber)
          rw [Summary.number, hnumber, Option.getD_some]
          omega
    have hle := top_le hleast
    have hbound : 2 ≤ bound := by decide
    rw [aboveAll]
    omega

theorem find?_greatest :
    containers.find? (·.number? = some (bound - 1)) = none ↔ aboveAll containers < bound := by
  simp only [aboveAll_lt_bound_iff, List.find?_eq_none, decide_eq_true_eq, ne_eq]

/-- The next number is the one above the highest, if there is one and every container has a number.
    Otherwise the first container without a number is named, or the first one with the greatest. -/
theorem next_eq (containers : List Summary) : next containers =
    match containers.find? (·.number?.isNone) with
    | some c => .error (.malformed c.name (labelOf c))
    | none =>
      match containers.find? (·.number? = some (bound - 1)) with
      | some c => .error (.exhausted c.name (bound - 1))
      | none => .ok (aboveAll containers) := by
  rw [next, numbered_eq]
  cases hnumbered : containers.find? (·.number?.isNone) with
  | some c => rfl
  | none =>
      have hread : ∀ c ∈ containers, c.number? = some c.number := fun c hc =>
        Summary.number?_eq (find?_unnumbered.mp hnumbered c hc)
      simp only [bind, Except.bind]
      rcases highest_cases (containers.map fun c => (c.number, c)) with
        hnil | ⟨before, entry, after, hsplit, hhighest, hbefore, hafter⟩
      · rw [List.map_eq_nil_iff] at hnil
        rw [hnil]
        rfl
      rcases List.map_eq_append_iff.mp hsplit with ⟨front, rest, rfl, rfl, hrest⟩
      rcases List.map_eq_cons_iff.mp hrest with ⟨c, back, rfl, rfl, rfl⟩
      simp only [List.forall_mem_map] at hbefore hafter
      have hleast : ∀ d ∈ front ++ c :: back, d.number ≤ c.number := by
        intro d hd
        rcases List.mem_append.mp hd with hd | hd
        · exact Nat.le_of_lt (hbefore d hd)
        · exact (List.mem_cons.mp hd).elim (fun heq => heq ▸ Nat.le_refl _) (hafter d)
      have hmem : c ∈ front ++ c :: back := List.mem_append_right _ List.mem_cons_self
      rw [hhighest]
      simp only
      by_cases hroom : c.number + 1 < bound
      · have habove : aboveAll (front ++ c :: back) = c.number + 1 := by
          have hle : aboveAll (front ++ c :: back) ≤ c.number + 1 :=
            Nat.succ_le_succ (top_le (List.forall_mem_map.mpr hleast))
          have := number_lt_aboveAll hmem
          omega
        rw [if_pos hroom, find?_greatest.mpr (habove ▸ hroom), habove]
        rfl
      · have hlast : c.number = bound - 1 := by
          have := Summary.number_lt_bound (hread c hmem)
          omega
        have hfound : (front ++ c :: back).find? (·.number? = some (bound - 1)) = some c := by
          refine List.find?_eq_some_iff_append.mpr ⟨?_, front, back, rfl, fun d hd => ?_⟩
          · rw [hread c hmem, hlast]
            exact decide_eq_true rfl
          · have := hbefore d hd
            rw [hread d (List.mem_append_left _ hd)]
            simp only [Option.some.injEq, Bool.not_eq_eq_eq_not, Bool.not_true,
              decide_eq_false_iff_not]
            omega
        rw [if_neg hroom, hfound, hlast]
        rfl

/-! ### New numbers -/

/-- New numbers are found if there is a next one and they all stay below the bound. Otherwise
    whoever stands in the way is named. -/
theorem allocate_eq (containers : List Summary) (count : Nat) : allocate containers count =
    match containers.find? (·.number?.isNone) with
    | some c => .error (.malformed c.name (labelOf c))
    | none =>
      match containers.find? (·.number? = some (bound - 1)) with
      | some c => .error (.exhausted c.name (bound - 1))
      | none =>
        if count = 0 ∨ aboveAll containers + count ≤ bound then
          .ok (List.range' (aboveAll containers) count)
        else .error (.beyond (aboveAll containers) (bound - aboveAll containers) count) := by
  rw [allocate, next_eq]
  cases containers.find? (·.number?.isNone) with
  | some c => rfl
  | none =>
      cases containers.find? (·.number? = some (bound - 1)) with
      | some c => rfl
      | none => rfl

/-- Numbers are found just if every container has one and there are enough above the highest. -/
theorem allocate_eq_ok_iff {count : Nat} {numbers : List Nat} :
    allocate containers count = .ok numbers ↔
      (∀ c ∈ containers, c.number? ≠ none) ∧ aboveAll containers < bound ∧
        (0 < count → aboveAll containers + count - 1 < bound) ∧
        numbers = List.range' (aboveAll containers) count := by
  rw [allocate_eq, ← find?_unnumbered, ← find?_greatest]
  cases containers.find? (·.number?.isNone) with
  | some c => exact iff_of_false nofun nofun
  | none =>
      cases hgreatest : containers.find? (·.number? = some (bound - 1)) with
      | some c => exact iff_of_false nofun nofun
      | none =>
          have hroom := find?_greatest.mp hgreatest
          have hfits : (count = 0 ∨ aboveAll containers + count ≤ bound) ↔
              (0 < count → aboveAll containers + count - 1 < bound) := by omega
          by_cases hcount : count = 0 ∨ aboveAll containers + count ≤ bound
          · simp only [if_pos hcount, Except.ok.injEq]
            exact ⟨fun h => ⟨trivial, trivial, hfits.mp hcount, h.symm⟩, fun h => h.2.2.2.symm⟩
          · simp only [if_neg hcount]
            exact iff_of_false nofun fun h => hcount (hfits.mpr h.2.2.1)

/-- The first container without a number, with those in front of it. -/
theorem find?_unnumbered_eq_some {c : Summary} :
    containers.find? (·.number?.isNone) = some c ↔ ∃ before after,
      containers = before ++ c :: after ∧ (∀ d ∈ before, d.number? ≠ none) ∧ c.number? = none := by
  rw [List.find?_eq_some_iff_append]
  constructor
  · rintro ⟨hc, before, after, hsplit, hbefore⟩
    refine ⟨before, after, hsplit, fun d hd => ?_, Option.isNone_iff_eq_none.mp hc⟩
    exact Option.ne_none_iff_isSome.mpr (by simpa using hbefore d hd)
  · rintro ⟨before, after, hsplit, hbefore, hc⟩
    refine ⟨Option.isNone_iff_eq_none.mpr hc, before, after, hsplit, fun d hd => ?_⟩
    simpa using Option.ne_none_iff_isSome.mp (hbefore d hd)

/-- Labels are complained of before anything else. -/
theorem allocate_eq_malformed_iff {count : Nat} {name label : String} :
    allocate containers count = .error (.malformed name label) ↔
      ∃ c, containers.find? (·.number?.isNone) = some c ∧ name = c.name ∧ label = labelOf c := by
  rw [allocate_eq]
  cases containers.find? (·.number?.isNone) with
  | some c =>
      simp only [Except.error.injEq, NumberError.malformed.injEq, Option.some.injEq,
        exists_eq_left']
      exact and_congr eq_comm eq_comm
  | none =>
      cases containers.find? (·.number? = some (bound - 1)) with
      | some c => exact iff_of_false nofun nofun
      | none =>
          by_cases hcount : count = 0 ∨ aboveAll containers + count ≤ bound
          · simp only [if_pos hcount]
            exact iff_of_false nofun nofun
          · simp only [if_neg hcount]
            exact iff_of_false nofun nofun

/-- If there is no number above the highest, the first container with the greatest is named. -/
theorem allocate_of_greatest {count : Nat} (hnumbered : ∀ c ∈ containers, c.number? ≠ none)
    (hfull : bound ≤ aboveAll containers) : ∃ before c after, containers = before ++ c :: after ∧
      (∀ d ∈ before, d.number? ≠ some (bound - 1)) ∧ c.number? = some (bound - 1) ∧
      allocate containers count = .error (.exhausted c.name (bound - 1)) := by
  cases hgreatest : containers.find? (·.number? = some (bound - 1)) with
  | none => exact absurd (find?_greatest.mp hgreatest) (Nat.not_lt.mpr hfull)
  | some c =>
      rcases List.find?_eq_some_iff_append.mp hgreatest with ⟨hc, before, after, hsplit, hbefore⟩
      refine ⟨before, c, after, hsplit, fun d hd => ?_, of_decide_eq_true hc, ?_⟩
      · simpa using hbefore d hd
      · rw [allocate_eq, find?_unnumbered.mpr hnumbered, hgreatest]

/-- If numbers run out on the way, the first one that is too great is told. -/
theorem allocate_of_lack {count : Nat} (hnumbered : ∀ c ∈ containers, c.number? ≠ none)
    (hroom : aboveAll containers < bound) (hlack : bound ≤ aboveAll containers + count - 1) :
    allocate containers count =
      .error (.beyond (aboveAll containers) (bound - aboveAll containers) count) := by
  have hcount : ¬(count = 0 ∨ aboveAll containers + count ≤ bound) := by omega
  rw [allocate_eq, find?_unnumbered.mpr hnumbered, find?_greatest.mpr hroom]
  exact if_neg hcount

/-- Numbers are found for new containers just if every container there is has one and there are
    enough left above the highest. They go on from there, so none is given twice, none is zero and
    none is taken. Labels that hold no number are complained of first, and then the first of them;
    then the first container with the greatest number; and then the first new number that would be
    too great. -/
theorem numbers_allocated (containers : List Summary) (count : Nat) :
    (∀ numbers, allocate containers count = .ok numbers ↔
      (∀ c ∈ containers, c.number? ≠ none) ∧ aboveAll containers < bound ∧
        (0 < count → aboveAll containers + count - 1 < bound) ∧
        numbers = List.range' (aboveAll containers) count) ∧
    (∀ numbers, allocate containers count = .ok numbers →
      numbers.Nodup ∧ ∀ number ∈ numbers, 0 < number ∧ ∀ c ∈ containers, c.number? ≠ some number) ∧
    (∀ name label, allocate containers count = .error (.malformed name label) ↔
      ∃ before c after, containers = before ++ c :: after ∧ (∀ d ∈ before, d.number? ≠ none) ∧
        c.number? = none ∧ name = c.name ∧
        label = (c.labels.find? Labels.numberKey).getD "") ∧
    ((∀ c ∈ containers, c.number? ≠ none) → bound ≤ aboveAll containers →
      ∃ before c after, containers = before ++ c :: after ∧
        (∀ d ∈ before, d.number? ≠ some (bound - 1)) ∧ c.number? = some (bound - 1) ∧
        allocate containers count = .error (.exhausted c.name (bound - 1))) ∧
    ((∀ c ∈ containers, c.number? ≠ none) → aboveAll containers < bound →
      bound ≤ aboveAll containers + count - 1 → allocate containers count =
        .error (.beyond (aboveAll containers) (bound - aboveAll containers) count)) := by
  refine ⟨fun _ => allocate_eq_ok_iff, fun numbers hnumbers => ?_, fun name label => ?_,
    allocate_of_greatest, allocate_of_lack⟩
  · rcases allocate_eq_ok_iff.mp hnumbers with ⟨_, _, _, rfl⟩
    refine ⟨List.nodup_range', fun number hnumber => ?_⟩
    rw [List.mem_range'_1] at hnumber
    refine ⟨Nat.lt_of_lt_of_le (Nat.succ_pos _) hnumber.1, fun c hc htaken => ?_⟩
    have hlt := number_lt_aboveAll hc
    rw [Summary.number, htaken, Option.getD_some] at hlt
    omega
  · rw [allocate_eq_malformed_iff]
    constructor
    · rintro ⟨c, hfind, hname, hlabel⟩
      rcases find?_unnumbered_eq_some.mp hfind with ⟨before, after, hsplit, hbefore, hc⟩
      exact ⟨before, c, after, hsplit, hbefore, hc, hname, hlabel⟩
    · rintro ⟨before, c, after, hsplit, hbefore, hc, hname, hlabel⟩
      exact ⟨c, find?_unnumbered_eq_some.mpr ⟨before, after, hsplit, hbefore, hc⟩, hname, hlabel⟩

end Numbering

end Fleet
