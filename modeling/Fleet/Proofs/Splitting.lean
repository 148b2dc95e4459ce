import Fleet.Plan
import Fleet.Proofs.Allocation

/-!
# Telling the containers to keep from those too many

A container that is too many is destroyed, and so every container of a listing has to come
out of the split on one side exactly. The split is made by sorting and cutting, and sorting
is known here by what it returns, which says nothing about where one container ends up. What
is wanted instead is what no procedure is needed for: the same containers, by number, and
those with one number as they were listed. These three leave no choice (`eq_of_filter_key`),
so a list that has them is the one that sorting returns (`inNumberOrder_iff`), and no
other way of splitting is right.

Numbers are read if something is too many, and only then. What comes of that is known from
the search for new numbers.

## Main definitions

* `byNumber`: Containers sorted by their numbers.
* `InNumberOrder`: The containers of a listing by number, those with one number as listed.

## Theorems

* `pairwise_mergeSort_key`, `filter_mergeSort_key`: What sorting by a key does.
* `eq_of_filter_key`: It is the only way to do that.
* `splitExcess_eq`: What comes of a split.
* `splitExcess_eq_ok_iff`, `splitExcess_eq_error_iff`: When there is one of too many.
* `splitExcess_partitions`: When there is a split, and what it is.
-/

namespace Fleet

/-! ### Sorting by a key -/

section Key

variable {α : Type}

theorem key_le_trans (key : α → Nat) (a b c : α) (hab : decide (key a ≤ key b) = true)
    (hbc : decide (key b ≤ key c) = true) : decide (key a ≤ key c) = true := by
  simp only [decide_eq_true_eq] at hab hbc ⊢
  exact Nat.le_trans hab hbc

theorem key_le_total (key : α → Nat) (a b : α) :
    (decide (key a ≤ key b) || decide (key b ≤ key a)) = true := by
  simp only [Bool.or_eq_true, decide_eq_true_eq]
  exact Nat.le_total _ _

theorem pairwise_mergeSort_key (key : α → Nat) (xs : List α) :
    (xs.mergeSort fun a b => key a ≤ key b).Pairwise fun a b => key a ≤ key b :=
  (List.pairwise_mergeSort (key_le_trans key) (key_le_total key) xs).imp of_decide_eq_true

/-- Sorting leaves elements with one key in their order. -/
theorem filter_mergeSort_key (key : α → Nat) (xs : List α) (n : Nat) :
    (xs.mergeSort fun a b => key a ≤ key b).filter (key · = n) = xs.filter (key · = n) := by
  have hequal : (xs.filter (key · = n)).Pairwise fun a b => decide (key a ≤ key b) = true := by
    refine List.pairwise_of_forall_mem_list fun a ha b hb => ?_
    have ha' := of_decide_eq_true (List.mem_filter.mp ha).2
    have hb' := of_decide_eq_true (List.mem_filter.mp hb).2
    exact decide_eq_true (by omega)
  have hsub := List.sublist_mergeSort (key_le_trans key) (key_le_total key) hequal
    List.filter_sublist
  have hfiltered := hsub.filter (key · = n)
  rw [List.filter_filter] at hfiltered
  simp only [Bool.and_self] at hfiltered
  exact (hfiltered.eq_of_length ((List.mergeSort_perm xs _).filter _).length_eq.symm).symm

theorem mem_of_filter_key {key : α → Nat} {xs ys : List α}
    (h : ∀ n, xs.filter (key · = n) = ys.filter (key · = n)) {x : α} (hx : x ∈ xs) : x ∈ ys := by
  have hmem : x ∈ xs.filter (key · = key x) := List.mem_filter.mpr ⟨hx, decide_eq_true rfl⟩
  rw [h] at hmem
  exact (List.mem_filter.mp hmem).1

theorem key_le_of_head {key : α → Nat} {x y : α} {xs : List α}
    (h : (x :: xs).Pairwise fun a b => key a ≤ key b) (hy : y ∈ x :: xs) : key x ≤ key y := by
  rcases List.mem_cons.mp hy with rfl | hy
  · exact Nat.le_refl _
  · exact (List.pairwise_cons.mp h).1 y hy

/-- Lists sorted by a key are the same if those with one key are the same, for each key. -/
theorem eq_of_filter_key {key : α → Nat} {xs ys : List α}
    (hxs : xs.Pairwise fun a b => key a ≤ key b) (hys : ys.Pairwise fun a b => key a ≤ key b)
    (h : ∀ n, xs.filter (key · = n) = ys.filter (key · = n)) : xs = ys := by
  induction xs generalizing ys with
  | nil =>
      refine (List.eq_nil_iff_forall_not_mem.mpr fun y hy => ?_).symm
      exact absurd (mem_of_filter_key (fun n => (h n).symm) hy) List.not_mem_nil
  | cons x xs ih =>
      cases ys with
      | nil => exact absurd (mem_of_filter_key h List.mem_cons_self) List.not_mem_nil
      | cons y ys =>
          -- Both heads have the least key, and so each is the first of those that have it.
          have hy : y ∈ x :: xs := mem_of_filter_key (fun n => (h n).symm) List.mem_cons_self
          have hx : x ∈ y :: ys := mem_of_filter_key h List.mem_cons_self
          have hxy := key_le_of_head hxs hy
          have hyx := key_le_of_head hys hx
          have hhead := h (key x)
          rw [List.filter_cons_of_pos (by simp only [decide_eq_true_eq]),
            List.filter_cons_of_pos (by simp only [decide_eq_true_eq]; omega)] at hhead
          rcases List.cons_eq_cons.mp hhead with ⟨rfl, _⟩
          refine congrArg (x :: ·) (ih hxs.of_cons hys.of_cons fun n => ?_)
          have hn := h n
          by_cases hxn : key x = n
          · rw [List.filter_cons_of_pos (by simpa using hxn),
              List.filter_cons_of_pos (by simpa using hxn)] at hn
            exact (List.cons_eq_cons.mp hn).2
          · rw [List.filter_cons_of_neg (by simpa using hxn),
              List.filter_cons_of_neg (by simpa using hxn)] at hn
            exact hn

end Key

/-! ### Splitting -/

variable {containers : List Summary} {scale : Nat}

/-- Containers sorted by their numbers. -/
def byNumber (containers : List Summary) : List Summary :=
  containers.mergeSort fun c d => c.number ≤ d.number

/-- The containers of a listing by number, where those with one number are in the order in which
    they are listed. -/
structure InNumberOrder (containers sorted : List Summary) : Prop where
  perm : sorted.Perm containers
  ascending : sorted.Pairwise fun c d => c.number ≤ d.number
  stable : ∀ number, sorted.filter (·.number = number) = containers.filter (·.number = number)

theorem inNumberOrder_byNumber (containers : List Summary) :
    InNumberOrder containers (byNumber containers) :=
  ⟨List.mergeSort_perm _ _, pairwise_mergeSort_key _ _, filter_mergeSort_key _ _⟩

/-- There is one such order. -/
theorem inNumberOrder_iff {sorted : List Summary} :
    InNumberOrder containers sorted ↔ sorted = byNumber containers := by
  have hby := inNumberOrder_byNumber containers
  constructor
  · intro h
    exact eq_of_filter_key h.ascending hby.ascending fun n => (h.stable n).trans (hby.stable n).symm
  · rintro rfl
    exact hby

/-- With too many containers their numbers are read, and the first one that has none is named. -/
theorem splitExcess_eq (containers : List Summary) (scale : Nat) : splitExcess containers scale =
    if containers.length ≤ scale then .ok (containers, [])
    else match containers.find? (·.number?.isNone) with
      | some c => .error (.malformed c.name (Numbering.labelOf c))
      | none => .ok ((byNumber containers).take scale, (byNumber containers).drop scale) := by
  rw [splitExcess]
  by_cases hfew : containers.length ≤ scale
  · rw [if_pos hfew, if_pos hfew]
  rw [if_neg hfew, if_neg hfew, Numbering.numbered_eq]
  cases containers.find? (·.number?.isNone) with
  | some c => rfl
  | none =>
      have hsorted : (containers.map fun c => (c.number, c)).mergeSort (fun a b => a.1 ≤ b.1) =
          (byNumber containers).map fun c => (c.number, c) := by
        rw [byNumber, List.map_mergeSort]
        exact fun _ _ _ _ => rfl
      have hsnd : ((byNumber containers).map fun c => (c.number, c)).map (·.2) =
          byNumber containers := by
        rw [List.map_map]
        exact List.map_id _
      simp only [bind, Except.bind, pure, Except.pure, hsorted, hsnd]

/-- With too many containers there is a split if every one of them has a number, and then it is made
    in the order of the numbers. -/
theorem splitExcess_eq_ok_iff (hmany : scale < containers.length) {keep excess : List Summary} :
    splitExcess containers scale = .ok (keep, excess) ↔
      (∀ c ∈ containers, c.number? ≠ none) ∧ keep ++ excess = byNumber containers ∧
        keep.length = scale := by
  have hlength : (byNumber containers).length = containers.length := List.length_mergeSort _
  rw [splitExcess_eq, if_neg (Nat.not_le.mpr hmany), ← Numbering.find?_unnumbered]
  cases containers.find? (·.number?.isNone) with
  | some c => exact iff_of_false nofun nofun
  | none =>
      simp only [Except.ok.injEq, Prod.mk.injEq, true_and]
      constructor
      · rintro ⟨rfl, rfl⟩
        refine ⟨List.take_append_drop _ _, ?_⟩
        rw [List.length_take, hlength]
        omega
      · rintro ⟨happend, rfl⟩
        rw [← happend]
        exact ⟨List.take_left, List.drop_left⟩

/-- With too many containers there is no split if one of them has no number. -/
theorem splitExcess_eq_error_iff (hmany : scale < containers.length) :
    (∃ cause, splitExcess containers scale = .error cause) ↔
      ∃ c ∈ containers, c.number? = none := by
  rw [splitExcess_eq, if_neg (Nat.not_le.mpr hmany)]
  cases hfind : containers.find? (·.number?.isNone) with
  | some c =>
      have hnone := List.find?_some hfind
      exact iff_of_true ⟨_, rfl⟩
        ⟨c, List.mem_of_find?_eq_some hfind, Option.isNone_iff_eq_none.mp hnone⟩
  | none =>
      refine iff_of_false (fun ⟨_, herror⟩ => ?_) fun ⟨c, hc, hnone⟩ => ?_
      · cases herror
      · exact Numbering.find?_unnumbered.mp hfind c hc hnone

/-- A listing with no more containers than wanted is kept as it is, whatever the labels. Of one with
    more there is a split unless some label holds no number. Those kept and then those too many are
    then the containers of the listing by number, as many are kept as wanted, and none of them has a
    higher number than one that is too many. -/
theorem splitExcess_partitions (containers : List Summary) (scale : Nat) :
    (containers.length ≤ scale → splitExcess containers scale = .ok (containers, [])) ∧
    (scale < containers.length →
      ((∃ cause, splitExcess containers scale = .error cause) ↔
        ∃ c ∈ containers, c.number? = none) ∧
      ∀ keep excess, splitExcess containers scale = .ok (keep, excess) ↔
        (∀ c ∈ containers, c.number? ≠ none) ∧ InNumberOrder containers (keep ++ excess) ∧
          keep.length = scale ∧ ∀ c ∈ keep, ∀ d ∈ excess, c.number ≤ d.number) := by
  refine ⟨fun hfew => by rw [splitExcess_eq, if_pos hfew], fun hmany =>
    ⟨splitExcess_eq_error_iff hmany, fun keep excess => ?_⟩⟩
  rw [splitExcess_eq_ok_iff hmany, inNumberOrder_iff]
  refine and_congr_right fun _ => ⟨fun ⟨horder, hkeep⟩ => ⟨horder, hkeep, ?_⟩,
    fun ⟨horder, hkeep, _⟩ => ⟨horder, hkeep⟩⟩
  have hascending := (inNumberOrder_iff.mpr horder).ascending
  exact (List.pairwise_append.mp hascending).2.2

end Fleet
