import Fleet.Proofs.Convergence
import Fleet.Proofs.Passage
import Fleet.Proofs.Throughout

/-!
# What a successful pass has found

A pass that reports success tells more than that its service is in line. It has come
through its gates, so its dependencies were healthy. And the flag that it leaves for the
services that depend on this one says whether it has replaced a container, which is
whether it kept one that had to be replaced.

The flag is raised when a replacement is done. That it is raised only then is plain; that
it has been raised in the end hangs on the operations having succeeded, since a
replacement that has failed leaves it as it was.

## Main definitions

* `Job.Signals`: What a turn of an operation does to the flag.
* `Flags`: The flag while operations are on their way.
* `Pass.Finds`: What a pass has found, stage by stage.

## Theorems

* `flags_step`: Every move of the operations keeps what is known of the flag.
* `finds_step`: Every move keeps what a pass has found.
* `found_of_ok`: What a successful pass has found.
-/

namespace Fleet

variable {ρ : Type}

/-! ### The flag -/

/-- What a turn of an operation does to the flag, given whether it was raised. -/
structure Job.Signals (op : Operation) (raised : Bool) (turn : Turn Job (Except Error Unit))
    (site : Site ρ) : Prop where
  raises : site.recreated = true → raised = true ∨ op.kind = .recreate
  stays : raised = true → site.recreated = true
  goesOn : ∀ slot ∈ turn.slots, slot.task.operation = op
  done : turn = .finished (.ok ()) → op.kind = .recreate → site.recreated = true

theorem Job.signals_of_same {op : Operation} {turn : Turn Job (Except Error Unit)} {raised : Bool}
    {site : Site ρ} (hsame : site.recreated = raised)
    (hslots : ∀ slot ∈ turn.slots, slot.task.operation = op)
    (hundone : turn ≠ .finished (.ok ())) : Signals op raised turn site :=
  ⟨fun h => Or.inl (hsame.symm.trans h), hsame.trans, hslots, fun hdone => absurd hdone hundone⟩

/-- An operation that is dropped at the end of its turn has not been done. -/
theorem Job.Signals.dropped {op : Operation} {raised : Bool} {turn : Turn Job (Except Error Unit)}
    {site : Site ρ} (h : Signals op raised turn site) (error : Error) :
    Signals op raised (.finished (.error error)) site :=
  ⟨h.raises, h.stays, fun _ hslot => absurd hslot (Multiset.notMem_zero _), nofun⟩

theorem Job.conclude_signals (op : Operation) (site : Site ρ)
    (result : Turn Stand (Except RuntimeError Unit) × ρ) :
    let next := conclude op site result
    Signals op site.recreated next.1 next.2 := by
  rcases result with ⟨turn, w⟩
  have hone : ∀ (stand : Stand), ∀ slot ∈ ({⟨⟨op, stand⟩, true⟩} : Multiset (Slot Job)),
      slot.task.operation = op := by
    intro stand slot hslot
    rw [Multiset.mem_singleton.mp hslot]
  cases turn with
  | yielded stand => exact signals_of_same rfl (hone stand) nofun
  | asleep stand => exact signals_of_same rfl (hone stand) nofun
  | finished answer =>
      have hnone : ∀ slot ∈ (0 : Multiset (Slot Job)), slot.task.operation = op :=
        fun _ hslot => absurd hslot (Multiset.notMem_zero _)
      cases answer with
      | error cause => exact signals_of_same rfl hnone nofun
      | ok =>
          simp only [conclude, Site.complete]
          by_cases hkind : op.kind = .recreate
          · rw [if_pos hkind]
            exact ⟨fun _ => Or.inr hkind, fun _ => rfl, hnone, fun _ _ => rfl⟩
          · rw [if_neg hkind]
            exact ⟨Or.inl, id, hnone, fun _ h => absurd h hkind⟩

theorem Job.resume_signals (E : Engine ρ) (job : Job) (site : Site ρ) :
    let next := job.resume E site
    Signals job.operation site.recreated next.1 next.2 := by
  rcases job with ⟨op, stand⟩
  cases stand with
  | underway created request errand rest => exact conclude_signals op site _
  | fresh =>
      simp only [resume]
      cases op.steps with
      | error cause =>
          refine signals_of_same rfl (fun _ hslot => absurd hslot (Multiset.notMem_zero _)) ?_
          rintro ⟨⟩
      | ok steps => exact conclude_signals op (site.report _) _

/-- The flag while operations are on their way: it is raised only because of a replacement, and as
    long as nothing has failed, each replacement is on its way or has raised it. -/
structure Flags (operations : Multiset Operation) (slots : Multiset (Slot Job))
    (failure : Option Error) (scope : Scope (Site ρ)) : Prop where
  raised : scope.world.recreated = true → ∃ op ∈ operations, op.kind = .recreate
  known : ∀ slot ∈ slots, slot.task.operation ∈ operations
  owed : failure = none → ∀ op ∈ operations, op.kind = .recreate →
    scope.world.recreated = true ∨ ∃ slot ∈ slots, slot.task.operation = op

variable {E : Engine ρ} {operations : Multiset Operation} {failure : Option Error}

/-- What a turn leaves of an operation takes its place. -/
theorem Flags.of_signals {slot : Slot Job} {rest : Multiset (Slot Job)} {scope : Scope (Site ρ)}
    (h : Flags operations (slot ::ₘ rest) failure scope) {turn : Turn Job (Except Error Unit)}
    {scope' : Scope (Site ρ)}
    (hsignals : Job.Signals slot.task.operation scope.world.recreated turn scope'.world) :
    Flags operations (turn.slots + rest) (failure.or turn.failure?) scope' := by
  have hown := h.known slot (Multiset.mem_cons_self _ _)
  refine ⟨?_, ?_, ?_⟩
  · intro hraised
    rcases hsignals.raises hraised with hbefore | hkind
    · exact h.raised hbefore
    · exact ⟨_, hown, hkind⟩
  · intro slot' hslot'
    rcases Multiset.mem_add.mp hslot' with hslot' | hslot'
    · rw [hsignals.goesOn slot' hslot']
      exact hown
    · exact h.known slot' (Multiset.mem_cons_of_mem hslot')
  · intro hnone op hop hkind
    rw [Option.or_eq_none_iff] at hnone
    rcases h.owed hnone.1 op hop hkind with hraised | ⟨slot', hslot', rfl⟩
    · exact Or.inl (hsignals.stays hraised)
    · rcases Multiset.mem_cons.mp hslot' with rfl | hslot'
      · -- The replacement that has had its turn goes on or is done, since it has not failed.
        have hgoesOn := hsignals.goesOn
        cases turn with
        | yielded job =>
            exact Or.inr ⟨_, Multiset.mem_cons_self _ _, hgoesOn _ (Multiset.mem_singleton_self _)⟩
        | asleep job =>
            exact Or.inr ⟨_, Multiset.mem_cons_self _ _, hgoesOn _ (Multiset.mem_singleton_self _)⟩
        | finished result =>
            cases result with
            | ok => exact Or.inl (hsignals.done rfl hkind)
            | error error => cases hnone.2
      · exact Or.inr ⟨slot', Multiset.mem_add.mpr (Or.inr hslot'), rfl⟩

theorem flags_keptByTurns : Group.KeptByTurns (Job.conduct E) (Flags operations) := by
  intro slot rest failure scope h
  have hsignals := Job.resume_signals E slot.task scope.world
  rcases Group.guarded_cases (Job.conduct E).stopped (Job.conduct E).resume slot.started
    slot.task scope with heq | ⟨heq, _⟩ | ⟨heq, _⟩
  · rw [heq]
    exact h.of_signals hsignals
  · rw [heq]
    exact h.of_signals (Job.signals_of_same rfl
      (fun _ hslot => absurd hslot (Multiset.notMem_zero _)) nofun)
  · rw [heq]
    exact h.of_signals (hsignals.dropped _)

theorem flags_keptByWaking : Group.KeptByWaking (Job.conduct E) (Flags operations) := by
  intro slot rest failure scope h
  refine ⟨h.raised, ?_, ?_⟩
  · intro slot' hslot'
    rcases Multiset.mem_cons.mp hslot' with rfl | hslot'
    · exact h.known slot (Multiset.mem_cons_self _ _)
    · exact h.known slot' (Multiset.mem_cons_of_mem hslot')
  · intro hnone op hop hkind
    rcases h.owed hnone op hop hkind with hraised | ⟨slot', hslot', heq⟩
    · exact Or.inl hraised
    · rcases Multiset.mem_cons.mp hslot' with rfl | hslot'
      · exact Or.inr ⟨_, Multiset.mem_cons_self _ _, heq⟩
      · exact Or.inr ⟨slot', Multiset.mem_cons_of_mem hslot', heq⟩

/-- Every move of the operations keeps what is known of the flag. -/
theorem flags_step (move : Move) {jobs : Group Job} {site : Site ρ}
    (h : Flags operations jobs.slots jobs.failure ⟨jobs.tripped, site⟩) :
    let next := jobs.step (Job.conduct E) move site
    Flags operations next.1.slots next.1.failure ⟨next.1.tripped, next.2⟩ :=
  Group.step_invariant flags_keptByTurns flags_keptByWaking move
    (fun _ _ _ _ h => ⟨h.raised, h.known, h.owed⟩) h

theorem flags_ofTasks (operations : List Operation) {site : Site ρ}
    (hlowered : site.recreated = false) (tripped : Bool) :
    Flags operations (Group.ofTasks (operations.map Job.fresh)).slots none ⟨tripped, site⟩ := by
  rw [Group.slots_ofTasks]
  refine ⟨fun hraised => absurd (hlowered.symm.trans hraised) Bool.false_ne_true, ?_, ?_⟩
  · intro slot hslot
    rcases Multiset.mem_map.mp hslot with ⟨job, hjob, rfl⟩
    rcases List.mem_map.mp (Multiset.mem_coe.mp hjob) with ⟨op, hop, rfl⟩
    exact Multiset.mem_coe.mpr hop
  · intro _ op hop _
    exact Or.inr ⟨⟨Job.fresh op, false⟩, Multiset.mem_map_of_mem _
      (Multiset.mem_coe.mpr (List.mem_map_of_mem (Multiset.mem_coe.mp hop))), rfl⟩

/-! ### Stages -/

namespace Pass

variable {H : Host ρ} {s : Store} {pass : Pass} {site : Site ρ}

/-- The operations of a pass that follows a plan. -/
def tasks (pass : Pass) (s : Store) (plan : Plan) : List Operation :=
  (pass.duties plan.missing s.containers).map (·.operation (pass.brief s))

/-- Every dependency that has to be healthy is. -/
def Clears (pass : Pass) (cs : List Container) : Prop :=
  ∀ dependency ∈ pass.service.healthDependencies, Opens pass.project.name dependency cs

/-- What a pass has found that began on the store given: that its gates are open, once it has come
    through them, and at the end, if it succeeds, whether a container had to be replaced. -/
def Finds (H : Host ρ) (s : Store) (pass : Pass) (stage : Stage) (site : Site ρ) : Prop :=
  match stage with
  | .gating gates => site.recreated = false ∧
    Gate.Guards H (pass.brief s) False pass.project.name s.containers
      pass.service.healthDependencies gates.slots gates.failure ⟨gates.tripped, site.world⟩
  | .listing .. => site.recreated = false ∧ pass.Clears s.containers
  | .working jobs => pass.Clears s.containers ∧ ∃ plan,
    Flags (pass.tasks s plan) jobs.slots jobs.failure ⟨jobs.tripped, site⟩
  | .ended result => result = .ok () → pass.Clears s.containers ∧
    (site.recreated = true ↔ ∃ c ∈ pass.kept s.containers, pass.replaces c = true)

/-- There is a replacement among the operations if and only if a container is kept that has to be
    replaced. -/
theorem exists_recreate_iff (pass : Pass) (s : Store) (plan : Plan) :
    (∃ op ∈ pass.tasks s plan, op.kind = .recreate) ↔
      ∃ c ∈ pass.kept s.containers, pass.replaces c = true := by
  refine ⟨?_, ?_⟩
  · rintro ⟨op, hop, hkind⟩
    rcases List.mem_map.mp hop with ⟨duty, hduty, rfl⟩
    rcases mem_duties hduty with ⟨_, _, rfl⟩ | ⟨_, _, rfl⟩ | ⟨_, _, _, _, rfl⟩ |
      ⟨c, hc, hreplaces, rfl⟩
    · cases hkind
    · cases hkind
    · cases hkind
    · exact ⟨c, hc, hreplaces⟩
  · rintro ⟨c, hc, hreplaces⟩
    have hduty : Duty.recreate c ∈ pass.duties plan.missing s.containers :=
      List.mem_append_right _ (List.mem_filterMap.mpr ⟨c, hc, if_pos hreplaces⟩)
    exact ⟨_, List.mem_map_of_mem hduty, rfl⟩

theorem afterGates_finds {gates : Group Gate.Watch} (hlowered : site.recreated = false)
    (h : Gate.Guards H (pass.brief s) False pass.project.name s.containers
      pass.service.healthDependencies gates.slots gates.failure ⟨gates.tripped, site.world⟩) :
    Finds H s pass (afterGates gates) site := by
  unfold afterGates
  cases hover : gates.isOver with
  | false => exact ⟨hlowered, h⟩
  | true =>
      rw [(Group.slots_eq_zero_iff gates).mpr hover] at h
      cases hfailure : gates.failure with
      | some error =>
          simp only [Group.outcome, hfailure]
          rintro ⟨⟩
      | none =>
          simp only [Group.outcome, hfailure]
          rw [hfailure] at h
          exact ⟨hlowered, h.opens⟩

theorem afterJobs_finds (plan : Plan) {jobs : Group Job} (hclears : pass.Clears s.containers)
    (h : Flags (pass.tasks s plan) jobs.slots jobs.failure ⟨jobs.tripped, site⟩) :
    Finds H s pass (afterJobs jobs) site := by
  unfold afterJobs
  cases hover : jobs.isOver with
  | false => exact ⟨hclears, plan, h⟩
  | true =>
      rw [(Group.slots_eq_zero_iff jobs).mpr hover] at h
      intro hok
      have hnone : jobs.failure = none := by
        simp only [Group.outcome] at hok
        cases hfailure : jobs.failure with
        | none => rfl
        | some error =>
            rw [hfailure] at hok
            cases hok
      refine ⟨hclears, Iff.trans ⟨h.raised, ?_⟩ (exists_recreate_iff pass s plan)⟩
      rintro ⟨op, hop, hkind⟩
      rcases h.owed hnone op hop hkind with hraised | ⟨slot, hslot, _⟩
      · exact hraised
      · exact absurd hslot (Multiset.notMem_zero slot)

/-- Every move keeps what a pass has found. -/
theorem finds_step (move : Move) {stage : Stage}
    (hreached : Reached H False s { pass with stage } site) (h : Finds H s pass stage site) :
    let next := Pass.step H.engine move { pass with stage } site
    Finds H s pass next.1.stage next.2 := by
  cases stage with
  | gating gates =>
      exact afterGates_finds h.1 (Gate.guards_step move (fun _ => not_false) h.2)
  | listing started waiting errand =>
      cases move with
      | fire => exact h
      | cancel => exact h
      | poll place =>
          simp only [step]
          rcases takeListing_cases started hreached.1 hreached.2 with
            ⟨_, ⟨waiting', errand', heq, _⟩ | ⟨_, error, heq⟩ | heq⟩
          · rw [heq]
            exact h
          · rw [heq]
            rintro ⟨⟩
          · rw [heq, afterListing_eq]
            cases planFor { pass with stage := .listing started waiting errand } s.containers with
            | error cause => rintro ⟨⟩
            | ok plan =>
                refine afterJobs_finds plan h.2 (flags_ofTasks (pass.tasks s plan) ?_ false)
                exact h.1
  | working jobs =>
      rcases h with ⟨hclears, plan, hflags⟩
      exact afterJobs_finds plan hclears (flags_step move hflags)
  | ended result =>
      cases move with
      | poll _ => exact h
      | fire => exact h
      | cancel => exact h

/-- A pass that succeeds has found its gates open, and raises the flag if and only if it kept a
    container that had to be replaced. -/
theorem found_of_ok (H : Host ρ) (project : Project) (service : Service) (grace : Option Nat)
    (marks : Marks) {site : Site ρ} (hlowered : site.recreated = false)
    (hcalm : H.calm site.world) (hdistinct : (H.store site.world).Distinct) {moves : List Move}
    (hok : (play H.engine moves (start project service grace marks) site).1.result? =
      some (.ok ())) :
    let pass := start project service grace marks
    pass.Clears (H.store site.world).containers ∧
      ((play H.engine moves pass site).2.recreated = true ↔
        ∃ c ∈ pass.kept (H.store site.world).containers, pass.replaces c = true) := by
  intro pass
  have hintact : Intact H.forgetful (pass.brief (H.store site.world)) False
      (H.store site.world).containers site.world :=
    intact_of_distinct hcalm hdistinct (fun _ hs => absurd hs List.not_mem_nil) False.elim
  have hplay := play_stage H.engine pass (fun stage site' =>
    Reached H.forgetful False (H.store site.world) { pass with stage } site' ∧
      Finds H.forgetful (H.store site.world) pass stage site') ?_ moves
    ⟨start_reached project service grace marks hintact, afterGates_finds hlowered
      (Gate.guards_ofTasks service.healthDependencies hintact false)⟩
  swap
  · rintro move stage site' ⟨hreached, hfinds⟩
    have hnext := reached_step (fun plan _ => fit_of_unfair not_false plan.missing) move
      (fun _ => not_false) hreached
    rw [step_fields] at hnext
    exact ⟨hnext, finds_step move hreached hfinds⟩
  have hfinds := hplay.2
  rcases hstage : (play H.engine moves pass site).1.stage with _ | _ | _ | result
  · rw [result?, hstage] at hok
    cases hok
  · rw [result?, hstage] at hok
    cases hok
  · rw [result?, hstage] at hok
    cases hok
  · rw [result?, hstage] at hok
    rw [hstage] at hfinds
    exact hfinds (Option.some.inj hok)

end Pass

end Fleet
