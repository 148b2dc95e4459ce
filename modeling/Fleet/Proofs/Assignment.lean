import Fleet.Pass
import Fleet.Proofs.Ledger
import Fleet.Proofs.Plan

/-!
# The duties of a pass

What a pass is going to do, as duties. The containers of a store are told apart
by what becomes of them: those of other services and those that are as they should
be are left alone (`Pass.untouched`), and every other container is the one that a
duty is about (`Pass.duties`).

## Main definitions

* `Pass.brief`: What the operations of a pass take for granted.
* `Pass.listed`: The containers that a pass lists.
* `Pass.upkeepDuty`: What is done about a container that is kept.
* `Pass.duties`, `Pass.untouched`: The duties of a pass, and what they leave alone.
* `Pass.idle`: The containers of the service among these.

## Theorems

* `operations_eq`: The operations of a plan are those of the duties.
* `stock_eq`: Containers are left alone or somebody's duty.
* `mem_duties`: Whose duty is what.
-/

namespace Fleet

namespace Pass

/-- What the operations of a pass that begins on a store take for granted. -/
def brief (pass : Pass) (s : Store) : Brief where
  project := pass.project.name
  service := pass.service
  grace := pass.grace
  birth := s.healthOnCreate
  known := ids s.containers
  supply := s.supply

/-- The containers that a pass lists. -/
def listed (pass : Pass) (cs : List Container) : List Container :=
  cs.filter fun c => pass.filter.accepts c.labels

/-- The containers that are not the pass's concern. -/
def outside (pass : Pass) (cs : List Container) : List Container :=
  cs.filter fun c => !pass.filter.accepts c.labels

/-- The containers that a pass keeps. -/
def kept (pass : Pass) (cs : List Container) : List Container :=
  Plan.keptOf (pass.listed cs) pass.service.desiredScale

/-- The containers that are too many for a pass. -/
def excess (pass : Pass) (cs : List Container) : List Container :=
  Plan.excessOf (pass.listed cs) pass.service.desiredScale

/-- Whether a container that is kept is replaced. -/
def replaces (pass : Pass) (c : Container) : Bool :=
  Plan.isDrifted pass.service c.summary || pass.marks.forces pass.service

/-- What is done about a container that is kept. -/
def upkeepDuty (pass : Pass) (c : Container) : Option Duty :=
  if pass.replaces c then some (.recreate c)
  else if c.state.isRunning then none else some (.restart c)

/-- The duties of a pass that creates containers with certain numbers. -/
def duties (pass : Pass) (missing : List Nat) (cs : List Container) : List Duty :=
  missing.map .create ++ (pass.excess cs).map .remove ++ (pass.kept cs).filterMap pass.upkeepDuty

/-- The containers that are kept as they are. -/
def idle (pass : Pass) (cs : List Container) : List Container :=
  (pass.kept cs).filter fun c => (pass.upkeepDuty c).isNone

/-- The containers that a pass leaves alone. -/
def untouched (pass : Pass) (cs : List Container) : List Container :=
  pass.outside cs ++ pass.idle cs

/-- The plan that a pass makes for the containers of a store. -/
def planFor (pass : Pass) (cs : List Container) : Except NumberError Plan :=
  Plan.ofListing ((pass.listed cs).map (·.summary)) pass.service.desiredScale

variable {pass : Pass} {cs : List Container} {plan : Plan}

theorem about_of_planFor (h : pass.planFor cs = .ok plan) :
    plan.About (pass.listed cs) pass.service.desiredScale := Plan.ofListing_ok h

theorem upkeep_eq (s : Store) (c : Container) :
    Plan.upkeep pass.project.name pass.service pass.grace (pass.marks.forces pass.service)
      c.summary = (pass.upkeepDuty c).map (·.operation (pass.brief s)) := by
  unfold Plan.upkeep upkeepDuty replaces
  split
  · rfl
  · by_cases hrunning : c.state.isRunning = true
    · rw [if_pos hrunning]
      exact if_pos hrunning
    · rw [if_neg hrunning]
      exact if_neg hrunning

/-- The operations of a plan are those of the duties. -/
theorem operations_eq (s : Store) (h : pass.planFor cs = .ok plan) :
    plan.operations pass.project.name pass.service pass.grace (pass.marks.forces pass.service) =
      (pass.duties plan.missing cs).map (·.operation (pass.brief s)) := by
  have habout := about_of_planFor h
  have hupkeep : Plan.upkeep pass.project.name pass.service pass.grace
      (pass.marks.forces pass.service) ∘ Container.summary =
      fun c => (pass.upkeepDuty c).map (·.operation (pass.brief s)) :=
    funext fun c => upkeep_eq s c
  rw [Plan.operations, habout.kept, habout.excess, duties, List.map_append, List.map_append,
    List.map_map, List.map_map, List.map_map, List.filterMap_map, List.map_filterMap, hupkeep]
  rfl

/-- A container that something is done about is replaced, or does not run and is started. -/
theorem upkeepDuty_cases {c : Container} {duty : Duty} (h : pass.upkeepDuty c = some duty) :
    (pass.replaces c = true ∧ duty = .recreate c) ∨
      (pass.replaces c = false ∧ c.state.isRunning = false ∧ duty = .restart c) := by
  unfold upkeepDuty at h
  by_cases hreplaces : pass.replaces c = true
  · rw [if_pos hreplaces] at h
    exact Or.inl ⟨hreplaces, (Option.some.inj h).symm⟩
  · rw [if_neg hreplaces] at h
    by_cases hrunning : c.state.isRunning = true
    · rw [if_pos hrunning] at h
      cases h
    · rw [if_neg hrunning] at h
      exact Or.inr ⟨Bool.eq_false_iff.mpr hreplaces, Bool.eq_false_iff.mpr hrunning,
        (Option.some.inj h).symm⟩

theorem kept_split (pass : Pass) (kept : List Container) :
    (kept : Multiset Container) =
      ↑(kept.filter fun c => (pass.upkeepDuty c).isNone) +
        (kept.filterMap pass.upkeepDuty : Multiset Duty).bind fun duty =>
          (duty.found : Multiset Container) := by
  induction kept with
  | nil => rfl
  | cons c kept ih =>
      have hfound : ∀ duty, pass.upkeepDuty c = some duty → duty.found = [c] := by
        intro duty h
        rcases upkeepDuty_cases h with ⟨_, rfl⟩ | ⟨_, _, rfl⟩
        · rfl
        · rfl
      cases hduty : pass.upkeepDuty c with
      | none =>
          rw [List.filter_cons_of_pos (by rw [hduty]; rfl), List.filterMap_cons_none hduty,
            ← Multiset.cons_coe, ← Multiset.cons_coe, Multiset.cons_add, ← ih]
      | some duty =>
          rw [List.filter_cons_of_neg (by rw [hduty]; exact Bool.false_ne_true),
            List.filterMap_cons_some hduty, ← Multiset.cons_coe, ← Multiset.cons_coe,
            Multiset.cons_bind, hfound duty hduty, add_left_comm, ← ih]
          rfl

/-- Every container of the service is kept as it is or is somebody's duty. -/
theorem listed_eq (pass : Pass) (missing : List Nat) (cs : List Container) :
    (pass.listed cs : Multiset Container) = ↑(pass.idle cs) +
      (pass.duties missing cs : Multiset Duty).bind fun duty =>
        (duty.found : Multiset Container) := by
  have hcreate : ((missing.map Duty.create : List Duty) : Multiset Duty).bind
      (fun duty => (duty.found : Multiset Container)) = 0 := by
    rw [← Multiset.map_coe, Multiset.bind_map]
    exact Multiset.bind_zero _
  have hremove : (((pass.excess cs).map Duty.remove : List Duty) : Multiset Duty).bind
      (fun duty => (duty.found : Multiset Container)) = ↑(pass.excess cs) := by
    rw [← Multiset.map_coe, Multiset.bind_map]
    exact (Multiset.bind_singleton _ id).trans (Multiset.map_id _)
  have hlisted :
      (↑(pass.kept cs) + ↑(pass.excess cs) : Multiset Container) = ↑(pass.listed cs) := by
    rw [Multiset.coe_add, Multiset.coe_eq_coe]
    exact Plan.keptOf_append_excessOf_perm _ _
  rw [duties, idle, ← Multiset.coe_add, ← Multiset.coe_add, Multiset.add_bind, Multiset.add_bind,
    hcreate, hremove, zero_add, ← hlisted]
  conv_lhs => rw [kept_split pass (pass.kept cs)]
  rw [add_right_comm, ← add_assoc]

/-- Every container is left alone or is somebody's duty. -/
theorem stock_eq (pass : Pass) (missing : List Nat) (cs : List Container) :
    (cs : Multiset Container) = ↑(pass.untouched cs) +
      (pass.duties missing cs : Multiset Duty).bind fun duty =>
        (duty.found : Multiset Container) := by
  have hcs : (cs : Multiset Container) = ↑(pass.outside cs) + ↑(pass.listed cs) := by
    rw [Multiset.coe_add, Multiset.coe_eq_coe]
    exact (List.filter_append_perm _ cs).symm.trans List.perm_append_comm
  conv_lhs => rw [hcs, listed_eq pass missing cs]
  rw [untouched, ← Multiset.coe_add, add_assoc]

theorem found_le (pass : Pass) (missing : List Nat) (cs : List Container) {duty : Duty}
    (h : duty ∈ pass.duties missing cs) : ids duty.found ≤ ids cs := by
  refine Multiset.map_le_map ?_
  rw [stock_eq pass missing cs]
  exact (Multiset.le_bind (pass.duties missing cs : Multiset Duty) h).trans
    (Multiset.le_add_left _ _)

/-- Whose duty is what. -/
theorem mem_duties {missing : List Nat} {duty : Duty} (h : duty ∈ pass.duties missing cs) :
    (∃ number ∈ missing, duty = .create number) ∨ (∃ c ∈ pass.excess cs, duty = .remove c) ∨
    (∃ c ∈ pass.kept cs, pass.replaces c = false ∧ c.state.isRunning = false ∧
      duty = .restart c) ∨
    ∃ c ∈ pass.kept cs, pass.replaces c = true ∧ duty = .recreate c := by
  rw [duties, List.mem_append, List.mem_append, List.mem_map, List.mem_map,
    List.mem_filterMap] at h
  rcases h with (⟨number, hnumber, rfl⟩ | ⟨c, hc, rfl⟩) | ⟨c, hc, hduty⟩
  · exact Or.inl ⟨number, hnumber, rfl⟩
  · exact Or.inr (Or.inl ⟨c, hc, rfl⟩)
  · rcases upkeepDuty_cases hduty with ⟨hreplaces, rfl⟩ | ⟨hreplaces, hrunning, rfl⟩
    · exact Or.inr (Or.inr (Or.inr ⟨c, hc, hreplaces, rfl⟩))
    · exact Or.inr (Or.inr (Or.inl ⟨c, hc, hreplaces, hrunning, rfl⟩))

theorem upkeepDuty_eq_none {c : Container} (h : pass.upkeepDuty c = none) :
    pass.replaces c = false ∧ c.state.isRunning = true := by
  unfold upkeepDuty at h
  by_cases hreplaces : pass.replaces c = true
  · rw [if_pos hreplaces] at h
    cases h
  · rw [if_neg hreplaces] at h
    by_cases hrunning : c.state.isRunning = true
    · exact ⟨Bool.eq_false_iff.mpr hreplaces, hrunning⟩
    · rw [if_neg hrunning] at h
      cases h

theorem current_of_not_replaces {c : Container} (h : pass.replaces c = false) :
    c.labels.find? Labels.fingerprintKey = some pass.service.fingerprint := by
  rw [replaces, Bool.or_eq_false_iff, Plan.isDrifted, bne_eq_false_iff_eq] at h
  exact h.1

theorem mem_listed {c : Container} :
    c ∈ pass.listed cs ↔ c ∈ cs ∧ pass.filter.accepts c.labels = true := List.mem_filter

theorem mem_listed_of_kept {c : Container} (hc : c ∈ pass.kept cs) : c ∈ pass.listed cs :=
  (Plan.keptOf_append_excessOf_perm _ _).subset (List.mem_append_left _ hc)

theorem mem_listed_of_excess {c : Container} (hc : c ∈ pass.excess cs) : c ∈ pass.listed cs :=
  (Plan.keptOf_append_excessOf_perm _ _).subset (List.mem_append_right _ hc)

end Pass

end Fleet
