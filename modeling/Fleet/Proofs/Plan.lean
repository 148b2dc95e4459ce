import Fleet.Proofs.Splitting
import Fleet.Store

/-!
# What a plan says about containers

A plan is made from a listing, but what is proved about a pass is about the
containers listed. Here a plan is read back into the containers: which of them are
kept, which are too many, and what the new numbers are.

The numbers are the delicate part. They are read only when they are needed, so a
plan may exist although some container has none; when a plan has read them they
are the numbers that `Container.number` gives, which is total.

## Main definitions

* `Container.number`: The number of a container, zero if it has none.
* `Numbering.Room`: There are numbers left.
* `Plan.keptOf`, `Plan.excessOf`: The containers to keep and the ones too many.

## Theorems

* `numberOf_eq_iff`: A number can be read if there is one.
* `allocate_ok`: New numbers are consecutive, below the bound and above the old ones.
* `ofListing_complete`, `ofListing_of_length_eq`: When there is a plan.
* `ofListing_ok`: What a plan consists of.
* `keptOf_append_excessOf_perm`: Every container listed is kept or too many.
-/

namespace Fleet

/-- The number of a container, zero if it has none. -/
def Container.number (c : Container) : Nat :=
  match Numbering.numberOf c.summary with
  | .ok number => number
  | .error _ => 0

theorem Container.number_of_ok {c : Container} {number : Nat}
    (h : Numbering.numberOf c.summary = .ok number) : c.number = number := by
  rw [Container.number, h]

theorem Container.number_summary (c : Container) : c.summary.number = c.number := by
  rw [Container.number, Summary.number]
  cases hnumber : c.summary.number? with
  | none =>
      rw [Numbering.numberOf_of_none hnumber]
      rfl
  | some number =>
      rw [Numbering.numberOf_of_some hnumber]
      rfl

theorem Container.numberOf_eq_iff {c : Container} :
    Numbering.numberOf c.summary = .ok c.number ↔ c.summary.number? ≠ none := by
  rw [Numbering.numberOf_eq_ok_iff, ← c.number_summary]
  exact ⟨fun h => h ▸ Option.some_ne_none _, Summary.number?_eq⟩

namespace Numbering

theorem numbered_summaries {cs : List Container} :
    (∀ c ∈ cs.map (·.summary), c.number? ≠ none) ↔
      ∀ c ∈ cs, numberOf c.summary = .ok c.number := by
  simp only [List.forall_mem_map, Container.numberOf_eq_iff]

theorem aboveAll_summaries (cs : List Container) :
    aboveAll (cs.map (·.summary)) = top (cs.map (·.number)) + 1 := by
  rw [aboveAll, List.map_map]
  exact congrArg (top · + 1) (List.map_congr_left fun c _ => c.number_summary)

/-- New numbers are consecutive, and above the old ones. -/
theorem allocate_ok {cs : List Container} {count : Nat} {numbers : List Nat}
    (h : allocate (cs.map (·.summary)) count = .ok numbers) :
    (∀ c ∈ cs, numberOf c.summary = .ok c.number) ∧
      numbers = List.range' (top (cs.map (·.number)) + 1) count ∧
      ∀ number ∈ numbers, number < bound ∧ ∀ c ∈ cs, c.number < number := by
  rcases allocate_eq_ok_iff.mp h with ⟨hnumbered, _, hfits, hnumbers⟩
  rw [aboveAll_summaries] at hfits hnumbers
  refine ⟨numbered_summaries.mp hnumbered, hnumbers, fun number hnumber => ?_⟩
  rw [hnumbers, List.mem_range'_1] at hnumber
  refine ⟨by omega, fun c hc => ?_⟩
  have hle : c.number ≤ top (cs.map (·.number)) := le_top (List.mem_map_of_mem hc)
  omega

/-- There are numbers left for the containers that are missing. -/
def Room (cs : List Container) (scale : Nat) : Prop :=
  cs.length < scale → ∀ c ∈ cs, c.number + (scale - cs.length) < bound

/-- New numbers are found if there are numbers left. -/
theorem allocate_complete {cs : List Container} {scale : Nat}
    (h : ∀ c ∈ cs, numberOf c.summary = .ok c.number) (hroom : Room cs scale)
    (hscale : scale < bound) (hfew : cs.length < scale) :
    ∃ numbers, allocate (cs.map (·.summary)) (scale - cs.length) = .ok numbers := by
  have htop : top (cs.map (·.number)) ≤ bound - 1 - (scale - cs.length) := by
    refine top_le (List.forall_mem_map.mpr fun c hc => ?_)
    have hleft := hroom hfew c hc
    omega
  refine ⟨_, allocate_eq_ok_iff.mpr ⟨numbered_summaries.mpr h, ?_, fun _ => ?_, rfl⟩⟩
  · rw [aboveAll_summaries]
    omega
  · rw [aboveAll_summaries]
    omega

end Numbering

namespace Plan

/-- Containers in the order of their numbers, of equal numbers the one that comes first. -/
def inOrder (cs : List Container) : List Container := cs.mergeSort fun a b => a.number ≤ b.number

/-- The containers to keep. -/
def keptOf (cs : List Container) (scale : Nat) : List Container :=
  if cs.length ≤ scale then cs else (inOrder cs).take scale

/-- The containers too many. -/
def excessOf (cs : List Container) (scale : Nat) : List Container :=
  if cs.length ≤ scale then [] else (inOrder cs).drop scale

/-- Every container is kept or too many. -/
theorem keptOf_append_excessOf_perm (cs : List Container) (scale : Nat) :
    (keptOf cs scale ++ excessOf cs scale).Perm cs := by
  unfold keptOf excessOf
  by_cases h : cs.length ≤ scale
  · rw [if_pos h, if_pos h, List.append_nil]
  · rw [if_neg h, if_neg h, List.take_append_drop]
    exact List.mergeSort_perm _ _

theorem length_keptOf (cs : List Container) (scale : Nat) :
    (keptOf cs scale).length = min cs.length scale := by
  unfold keptOf
  by_cases h : cs.length ≤ scale
  · rw [if_pos h]
    omega
  · rw [if_neg h, List.length_take, inOrder, List.length_mergeSort]
    omega

theorem byNumber_summaries (cs : List Container) :
    byNumber (cs.map (·.summary)) = (inOrder cs).map (·.summary) := by
  rw [byNumber, inOrder, List.map_mergeSort]
  intro c _ d _
  rw [c.number_summary, d.number_summary]

/-- What is kept and what is too many, read back into containers. -/
theorem splitExcess_ok {cs : List Container} {scale : Nat} {split : List Summary × List Summary}
    (h : splitExcess (cs.map (·.summary)) scale = .ok split) :
    split = ((keptOf cs scale).map (·.summary), (excessOf cs scale).map (·.summary)) ∧
      (cs.length ≤ scale ∨ ∀ c ∈ cs, Numbering.numberOf c.summary = .ok c.number) := by
  rw [splitExcess_eq, List.length_map, byNumber_summaries] at h
  unfold keptOf excessOf
  by_cases hfew : cs.length ≤ scale
  · rw [if_pos hfew] at h
    rw [if_pos hfew, if_pos hfew]
    exact ⟨(Except.ok.inj h).symm, Or.inl hfew⟩
  rw [if_neg hfew] at h
  rw [if_neg hfew, if_neg hfew, List.map_take, List.map_drop]
  cases hfind : (cs.map (·.summary)).find? (·.number?.isNone) with
  | some c =>
      rw [hfind] at h
      cases h
  | none =>
      rw [hfind] at h
      exact ⟨(Except.ok.inj h).symm,
        Or.inr (Numbering.numbered_summaries.mp (Numbering.find?_unnumbered.mp hfind))⟩

/-- There is a plan if every container has a number and there are numbers left. -/
theorem ofListing_complete {cs : List Container} {scale : Nat}
    (h : ∀ c ∈ cs, Numbering.numberOf c.summary = .ok c.number)
    (hroom : Numbering.Room cs scale) (hscale : scale < Numbering.bound) :
    ∃ plan, ofListing (cs.map (·.summary)) scale = .ok plan := by
  have hsplit : ∃ split, splitExcess (cs.map (·.summary)) scale = .ok split := by
    rw [splitExcess_eq, Numbering.find?_unnumbered.mpr (Numbering.numbered_summaries.mpr h)]
    split <;> exact ⟨_, rfl⟩
  rcases hsplit with ⟨split, hsplit⟩
  simp only [ofListing, List.length_map, bind, Except.bind, pure, Except.pure, hsplit]
  by_cases hfew : cs.length < scale
  · rcases Numbering.allocate_complete h hroom hscale hfew with ⟨numbers, hnumbers⟩
    rw [if_pos hfew, hnumbers]
    exact ⟨_, rfl⟩
  · rw [if_neg hfew]
    exact ⟨_, rfl⟩

/-- With as many containers as wanted they are all kept, and no number is read. -/
theorem ofListing_of_length_eq {cs : List Container} {scale : Nat} (h : cs.length = scale) :
    ofListing (cs.map (·.summary)) scale = .ok ⟨[], [], cs.map (·.summary)⟩ := by
  have hlength : (cs.map (·.summary)).length = scale := by
    rw [List.length_map]
    exact h
  rw [ofListing, if_neg (by omega), splitExcess, if_pos (by omega)]
  rfl

/-- A plan read back into the containers it is about. -/
structure About (plan : Plan) (cs : List Container) (scale : Nat) : Prop where
  kept : plan.kept = (keptOf cs scale).map (·.summary)
  excess : plan.excess = (excessOf cs scale).map (·.summary)
  length : plan.missing.length = scale - cs.length
  nodup : plan.missing.Nodup
  -- New numbers are below the bound and above the old ones.
  above : ∀ number ∈ plan.missing, number < Numbering.bound ∧ ∀ c ∈ cs, c.number < number
  -- Numbers have been read if they were needed.
  read : cs.length ≠ scale → ∀ c ∈ cs, Numbering.numberOf c.summary = .ok c.number

/-- What a plan consists of. -/
theorem ofListing_ok {cs : List Container} {scale : Nat} {plan : Plan}
    (h : ofListing (cs.map (·.summary)) scale = .ok plan) : plan.About cs scale := by
  simp only [ofListing, List.length_map, bind, Except.bind, pure, Except.pure] at h
  -- Numbers are read to find new ones, or to find those too many, and not read otherwise.
  by_cases hfew : cs.length < scale
  · rw [if_pos hfew] at h
    cases hallocate : Numbering.allocate (cs.map (·.summary)) (scale - cs.length) with
    | error cause =>
        rw [hallocate] at h
        cases h
    | ok missing =>
        rw [hallocate] at h
        simp only at h
        cases hsplit : splitExcess (cs.map (·.summary)) scale with
        | error cause =>
            rw [hsplit] at h
            cases h
        | ok split =>
            rw [hsplit] at h
            rcases splitExcess_ok hsplit with ⟨rfl, _⟩
            rcases Numbering.allocate_ok hallocate with ⟨hall, rfl, habove⟩
            rw [← Except.ok.inj h]
            exact ⟨rfl, rfl, List.length_range', List.nodup_range', habove, fun _ => hall⟩
  · rw [if_neg hfew] at h
    cases hsplit : splitExcess (cs.map (·.summary)) scale with
    | error cause =>
        rw [hsplit] at h
        cases h
    | ok split =>
        rw [hsplit] at h
        rcases splitExcess_ok hsplit with ⟨rfl, hread⟩
        rw [← Except.ok.inj h]
        refine ⟨rfl, rfl, by rw [List.length_nil]; omega, List.nodup_nil, ?_, ?_⟩
        · exact fun number hnumber => absurd hnumber List.not_mem_nil
        · exact fun hne => hread.resolve_left (by omega)

end Plan

end Fleet
