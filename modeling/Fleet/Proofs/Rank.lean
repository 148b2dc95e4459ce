import Fleet.Proofs.Plan
import Mathlib.Data.List.Basic

/-!
# Who is kept

Of too many containers the ones with the lowest numbers are kept, and of equal numbers
the one that comes first. Said of a single container: it is kept if few enough others
come before it, where a container comes before another one if its number is lower, or is
the same and it stands further in front (`mem_keptOf_iff`).

This is what one has to know to tell whether a container that was kept once is kept
again after others have come and gone. Sorting as such is no help there, since it says
how a list is rearranged and not where one element of it ends up. Of the coming and going
one kind matters here: at most one container stands where another one stood, and others
of the same number come last.

## Main definitions

* `Plan.rank`: How many containers come before one.

## Theorems

* `eq_of_sorted`: A sorted list is the lower part, the equal part and the higher part.
* `filter_inOrder`: Sorting leaves containers with one number in their order.
* `mem_keptOf_iff`: The containers that few enough come before are kept.
* `rank_in_place`, `rank_around_le`: No more come before a container than did.
-/

namespace Fleet

namespace Plan

/-- How many containers come before one: those with lower numbers, and those with its number that
    stand in front of it. -/
def rank (cs : List Container) (c : Container) : Nat :=
  cs.countP (·.number < c.number) + (cs.filter (·.number = c.number)).idxOf c

theorem inOrder_perm (cs : List Container) : (inOrder cs).Perm cs := List.mergeSort_perm _ _

theorem inOrder_sorted (cs : List Container) :
    (inOrder cs).Pairwise fun a b => a.number ≤ b.number := pairwise_mergeSort_key _ _

/-- Sorting leaves containers with one number in their order. -/
theorem filter_inOrder (cs : List Container) (n : Nat) :
    (inOrder cs).filter (·.number = n) = cs.filter (·.number = n) := filter_mergeSort_key _ _ _

/-- A sorted list is the lower part, the equal part and the higher part. -/
theorem eq_of_sorted {cs : List Container} (h : cs.Pairwise fun a b => a.number ≤ b.number)
    (n : Nat) : cs = cs.filter (·.number < n) ++ cs.filter (·.number = n) ++
      cs.filter (n < ·.number) := by
  -- The parts that come before the part of the first container are empty.
  induction cs with
  | nil => rfl
  | cons c cs ih =>
      rcases List.pairwise_cons.mp h with ⟨hc, hcs⟩
      have hrest := ih hcs
      have hnone : ∀ p : Container → Bool, (∀ d, c.number ≤ d.number → p d = false) →
          cs.filter p = [] := by
        intro p hp
        refine List.filter_eq_nil_iff.mpr fun d hd => ?_
        rw [hp d (hc d hd)]
        exact Bool.false_ne_true
      rcases Nat.lt_trichotomy c.number n with hlt | heq | hgt
      · rw [List.filter_cons_of_pos (by simpa using hlt),
          List.filter_cons_of_neg (by simp only [decide_eq_true_eq]; omega),
          List.filter_cons_of_neg (by simp only [decide_eq_true_eq]; omega), List.cons_append,
          List.cons_append, ← hrest]
      · have hlower : cs.filter (·.number < n) = [] :=
          hnone _ fun d hd => by simp only [decide_eq_false_iff_not]; omega
        rw [hlower, List.nil_append] at hrest
        rw [List.filter_cons_of_neg (by simp only [decide_eq_true_eq]; omega), hlower,
          List.filter_cons_of_pos (by simpa using heq),
          List.filter_cons_of_neg (by simp only [decide_eq_true_eq]; omega), List.nil_append,
          List.cons_append, ← hrest]
      · have hlower : cs.filter (·.number < n) = [] :=
          hnone _ fun d hd => by simp only [decide_eq_false_iff_not]; omega
        have hequal : cs.filter (·.number = n) = [] :=
          hnone _ fun d hd => by simp only [decide_eq_false_iff_not]; omega
        rw [hlower, hequal, List.nil_append, List.nil_append] at hrest
        rw [List.filter_cons_of_neg (by simp only [decide_eq_true_eq]; omega), hlower,
          List.filter_cons_of_neg (by simp only [decide_eq_true_eq]; omega), hequal,
          List.filter_cons_of_pos (by simpa using hgt), List.nil_append, List.nil_append, ← hrest]

/-- In the order of numbers a container stands behind those that come before it. -/
theorem idxOf_inOrder {cs : List Container} {c : Container} (hc : c ∈ cs) :
    (inOrder cs).idxOf c = rank cs c := by
  have hlower : c ∉ (inOrder cs).filter (·.number < c.number) := by
    intro hmem
    have := (List.mem_filter.mp hmem).2
    simp only [decide_eq_true_eq] at this
    omega
  have hequal : c ∈ (inOrder cs).filter (·.number = c.number) :=
    List.mem_filter.mpr ⟨(inOrder_perm cs).mem_iff.mpr hc, by simp only [decide_eq_true_eq]⟩
  rw [eq_of_sorted (inOrder_sorted cs) c.number, List.append_assoc,
    List.idxOf_append_of_notMem hlower, List.idxOf_append_of_mem hequal, filter_inOrder,
    ← List.countP_eq_length_filter, (inOrder_perm cs).countP_eq, rank]

/-- The containers that few enough others come before are kept. -/
theorem mem_keptOf_iff {cs : List Container} {c : Container} (hc : c ∈ cs) (scale : Nat) :
    c ∈ keptOf cs scale ↔ rank cs c < scale := by
  have hmem : c ∈ inOrder cs := (inOrder_perm cs).mem_iff.mpr hc
  unfold keptOf
  by_cases hfew : cs.length ≤ scale
  · rw [if_pos hfew]
    refine iff_of_true hc ?_
    have hlt := List.idxOf_lt_length_of_mem hmem
    rw [idxOf_inOrder hc, (inOrder_perm cs).length_eq] at hlt
    omega
  · rw [if_neg hfew, List.mem_take_iff_idxOf_lt hmem, idxOf_inOrder hc]

section Around

variable {front old back new : List Container} {c d : Container}

theorem countP_around (hold : ∀ e ∈ old, e.number = c.number)
    (hnew : ∀ e ∈ new, e.number = c.number) :
    (front ++ old ++ back ++ new).countP (·.number < c.number) =
      (front ++ c :: back).countP (·.number < c.number) := by
  have hnone : ∀ l : List Container, (∀ e ∈ l, e.number = c.number) →
      l.countP (·.number < c.number) = 0 := by
    intro l hl
    refine List.countP_eq_zero.mpr fun e he => ?_
    rw [hl e he]
    simp only [decide_eq_true_eq]
    omega
  have hself := hnone [c] fun e he => by rw [List.mem_singleton.mp he]
  rw [List.append_cons]
  simp only [List.countP_append, hnone old hold, hnone new hnew, hself, Nat.add_zero]

/-- Containers of one number are all among those of this number. -/
theorem filter_around (front back : List Container) {n : Nat} (hc : c.number = n)
    (hold : ∀ e ∈ old, e.number = n) (hnew : ∀ e ∈ new, e.number = n) :
    (front ++ old ++ back ++ new).filter (·.number = n) =
      front.filter (·.number = n) ++ (old ++ (back.filter (·.number = n) ++ new)) ∧
    (front ++ c :: back).filter (·.number = n) =
      front.filter (·.number = n) ++ c :: back.filter (·.number = n) := by
  have hall : ∀ l : List Container, (∀ e ∈ l, e.number = n) → l.filter (·.number = n) = l :=
    fun l hl => List.filter_eq_self.mpr fun e he => by simpa using hl e he
  constructor
  · simp only [List.filter_append, hall old hold, hall new hnew, List.append_assoc]
  · rw [List.filter_append, List.filter_cons_of_pos (by simpa using hc)]

/-- As many containers come before one that stands where another one of its number stood. -/
theorem rank_in_place (hnumber : d.number = c.number) (hnew : ∀ e ∈ new, e.number = c.number)
    (hc : c ∉ front) (hd : d ∉ front) :
    rank (front ++ [d] ++ back ++ new) d = rank (front ++ c :: back) c := by
  have hold : ∀ e ∈ [d], e.number = c.number := by
    intro e he
    rw [List.mem_singleton.mp he, hnumber]
  rcases filter_around front back rfl hold hnew with ⟨hafter, hbefore⟩
  have hcf : c ∉ front.filter (·.number = c.number) := fun h => hc (List.mem_filter.mp h).1
  have hdf : d ∉ front.filter (·.number = c.number) := fun h => hd (List.mem_filter.mp h).1
  unfold rank
  rw [hnumber, countP_around hold hnew, hafter, hbefore, List.idxOf_append_of_notMem hcf,
    List.idxOf_append_of_notMem hdf, List.singleton_append, List.idxOf_cons_self,
    List.idxOf_cons_self]

/-- No more containers come before one that another one of its number was around. -/
theorem rank_around_le (hd : d ∈ front ++ back) (hnumber : d.number = c.number)
    (hold : ∀ e ∈ old, e.number = c.number) (hnew : ∀ e ∈ new, e.number = c.number)
    (hone : old.length ≤ 1) (hdold : d ∉ old) (hne : d ≠ c) :
    rank (front ++ old ++ back ++ new) d ≤ rank (front ++ c :: back) d := by
  rcases filter_around front back rfl hold hnew with ⟨hafter, hbefore⟩
  unfold rank
  rw [hnumber, countP_around hold hnew, hafter, hbefore]
  refine Nat.add_le_add_left ?_ _
  by_cases hfront : d ∈ front.filter (·.number = c.number)
  · simp only [List.idxOf_append_of_mem hfront, Nat.le_refl]
  · have hback : d ∈ back.filter (·.number = c.number) := by
      rcases List.mem_append.mp hd with hd | hd
      · exact absurd (List.mem_filter.mpr ⟨hd, by simpa using hnumber⟩) hfront
      · exact List.mem_filter.mpr ⟨hd, by simpa using hnumber⟩
    rw [List.idxOf_append_of_notMem hfront, List.idxOf_append_of_notMem hfront,
      List.idxOf_append_of_notMem hdold, List.idxOf_append_of_mem hback,
      List.idxOf_cons_ne _ fun h => hne h.symm]
    omega

end Around

end Plan

end Fleet
