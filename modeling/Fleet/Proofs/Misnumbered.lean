import Fleet.Proofs.Beginning

/-!
# Containers whose number cannot be read

A container of the service may carry a label that is no number. A pass that finds one is
bound to refuse, naming such a container and changing nothing, if it reads the numbers to
make its plan. It does so if there are too few containers or too many.

With as many containers as wanted it reads no number to make its plan. Each replacement
reads the number of its own container when it begins, and by then the other operations may
be under way. So the pass is still bound to refuse if nothing but replacements of such
containers is to be done, and not otherwise: with nothing to be done it succeeds, and an
operation that can begin may have the first turn (`not_inevitable_of_pressing`).

What there is to be done does not matter to the first half of this, and so ids may occur
twice here. It is enough that what is looked at is what there is (`still_sees`).

## Main definitions

* `Container.Misnumbered`: A container whose number cannot be read.
* `Still`: A world in which nothing has happened since another one.
* `Pass.Refuses`: What a pass comes to that refuses and changes nothing.
* `Pass.Barred`: Operations none of which can begin.

## Theorems

* `Plan.ofListing_error`: There is no plan if numbers are read and one cannot be.
* `Pass.inevitable_barred`: Operations none of which can begin are bound to be refused.
* `Pass.inevitably_refuses_iff`: When a pass is bound to refuse.
* `not_refuses_sample`: A pass that changes something before it refuses.
-/

namespace Fleet

variable {ρ : Type}

/-! ### Numbers that cannot be read -/

/-- A container whose number cannot be read. -/
def Container.Misnumbered (c : Container) : Prop :=
  Numbering.parse? (Numbering.labelOf c.summary) = none

/-- What is said about a container whose number cannot be read. -/
def Container.complaint (c : Container) : NumberError :=
  .malformed c.name (Numbering.labelOf c.summary)

theorem Numbering.numberOf_of_misnumbered {c : Container} (h : c.Misnumbered) :
    numberOf c.summary = .error c.complaint := numberOf_of_none h

theorem Numbering.numberOf_of_not_misnumbered {c : Container} (h : ¬c.Misnumbered) :
    ∃ number, numberOf c.summary = .ok number :=
  ⟨_, numberOf_eq_ok_iff.mpr (Summary.number?_eq h)⟩

/-- If some number cannot be read, the numbers are refused for such a container. -/
theorem Numbering.numbered_error {cs : List Container} (h : ∃ c ∈ cs, c.Misnumbered) :
    ∃ c ∈ cs, c.Misnumbered ∧ numbered (cs.map (·.summary)) = .error c.complaint := by
  rw [numbered_eq]
  cases hfind : (cs.map (·.summary)).find? (·.number?.isNone) with
  | none =>
      rcases h with ⟨c, hc, hmisnumbered⟩
      exact absurd hmisnumbered (find?_unnumbered.mp hfind c.summary (List.mem_map_of_mem hc))
  | some summary =>
      rcases List.mem_map.mp (List.mem_of_find?_eq_some hfind) with ⟨c, hc, rfl⟩
      have hnone := List.find?_some hfind
      exact ⟨c, hc, Option.isNone_iff_eq_none.mp hnone, rfl⟩

/-- With too few containers or too many there is no plan if some number cannot be read. -/
theorem Plan.ofListing_error {cs : List Container} {scale : Nat} (hcount : cs.length ≠ scale)
    (h : ∃ c ∈ cs, c.Misnumbered) :
    ∃ c ∈ cs, c.Misnumbered ∧ ofListing (cs.map (·.summary)) scale = .error c.complaint := by
  rcases Numbering.numbered_error h with ⟨c, hc, hmisnumbered, herror⟩
  refine ⟨c, hc, hmisnumbered, ?_⟩
  rw [ofListing, List.length_map]
  by_cases hfew : cs.length < scale
  · simp only [if_pos hfew, Numbering.allocate, Numbering.next, herror, bind, Except.bind]
  · have hmany : ¬cs.length ≤ scale := by omega
    simp only [if_neg hfew, splitExcess, List.length_map, if_neg hmany, herror, bind, Except.bind,
      pure, Except.pure]

/-! ### Nothing has happened -/

/-- A world in which nothing can happen and nothing has happened since another one. -/
structure Still (H : Host ρ) (first w : ρ) : Prop where
  peaceful : H.peaceful w
  clean : (H.store w).pending = fun _ => none
  containers : (H.store w).containers = (H.store first).containers
  mutations : (H.store w).mutations = (H.store first).mutations

/-- With no failure in store looking leaves a store as it is but for the log. -/
theorem Store.call_of_looking {q : Request} (hq : q.isMutation = false) {s : Store}
    (hclean : s.pending = fun _ => none) : (s.call q).2 = s.logged q := by
  rw [call_of_pending_none (by rw [hclean])]
  cases q with
  | list filter => rfl
  | inspect id =>
      simp only [serve]
      cases (s.logged (.inspect id)).container? id <;> rfl
  | _ => cases hq

/-- Where nothing happens, what is looked at is what there is. -/
theorem still_sees (H : Host ρ) (first : ρ) :
    Sees H.engine (H.store first).containers (Still H first) where
  kept q w hq h := by
    rcases H.call_peaceful q w h.peaceful with ⟨hpeaceful, _, hstore⟩
    have hlogged := Store.call_of_looking hq h.clean
    refine ⟨hpeaceful, ?_, ?_, ?_⟩
    · rw [hstore, hlogged]
      exact h.clean
    · rw [hstore, hlogged]
      exact h.containers
    · rw [hstore, Store.mutations_of_looking hq]
      exact h.mutations
  lists w filter h := by
    rw [(H.call_peaceful _ w h.peaceful).2.1, Store.call_of_pending_none (by rw [h.clean]),
      ← h.containers]
    rfl
  inspects w id c h hfind := by
    rw [(H.call_peaceful _ w h.peaceful).2.1, Store.call_of_pending_none (by rw [h.clean])]
    simp only [Store.serve, Store.container?, Store.logged, h.containers, hfind]
  going w h := H.not_cancelled w h.peaceful

namespace Pass

/-- A pass has refused because of a container whose number cannot be read, and has made no request
    that could change something. -/
structure Refuses (H : Host ρ) (project : Project) (service : Service) (first : ρ)
    (result : Except Error Unit) (site : Site ρ) : Prop where
  refused : ∃ c ∈ ofService project service (H.store first).containers, c.Misnumbered ∧
    result = .error (.number c.complaint)
  unchanged : (H.store site.world).mutations = (H.store first).mutations

/-! ### Operations none of which can begin -/

/-- Operations none of which can begin, since each is to read the number of a container that has
    none, with the first one's refusal once it has had its turn. -/
structure Barred (H : Host ρ) (first : ρ) (own : List Container) (slots : Multiset (Slot Job))
    (failure : Option Error) (scope : Scope (Site ρ)) : Prop where
  still : Still H first scope.world.world
  waiting : ∀ slot ∈ slots, slot.started = false ∧ slot.task.stand = .fresh ∧
    ∃ c ∈ own, c.Misnumbered ∧ slot.task.operation.steps = .error c.complaint
  quiet : failure = none → slots ≠ 0 ∧ scope.tripped = false
  refusal : ∀ error, failure = some error → ∃ c ∈ own, c.Misnumbered ∧ error = .number c.complaint

section Barred

variable {H : Host ρ} {first : ρ} {own : List Container} {slots rest : Multiset (Slot Job)}
  {slot : Slot Job} {failure : Option Error} {scope : Scope (Site ρ)}

/-- An operation that cannot begin is at its end with its first turn, and nothing has happened. -/
theorem Barred.turn (h : Barred H first own (slot ::ₘ rest) failure scope) :
    ∃ error, guarded (Job.conduct H.engine).stopped (Job.conduct H.engine).resume slot.started
        slot.task scope = (.finished (.error error), scope) ∧
      ∀ error', failure.or (some error) = some error' →
        ∃ c ∈ own, c.Misnumbered ∧ error' = .number c.complaint := by
  rcases h.waiting slot (Multiset.mem_cons_self _ _) with
    ⟨hstarted, hfresh, c, hc, hmisnumbered, hsteps⟩
  rcases slot with ⟨⟨op, stand⟩, started⟩
  simp only at hstarted hfresh hsteps
  subst hstarted hfresh
  -- Only the first error is kept, so this one matters if there was none before.
  have hrefusal : ∀ error, (failure = none → error = .number c.complaint) →
      ∀ error', failure.or (some error) = some error' →
        ∃ c ∈ own, c.Misnumbered ∧ error' = .number c.complaint := by
    intro error hfirst error' heq
    cases hfailure : failure with
    | none =>
        rw [hfailure, Option.none_or] at heq
        exact ⟨c, hc, hmisnumbered, (Option.some.inj heq).symm.trans (hfirst hfailure)⟩
    | some earlier =>
        rw [hfailure, Option.some_or] at heq
        exact h.refusal error' (hfailure.trans heq)
  cases hstopped : (Job.conduct H.engine).stopped scope with
  | false =>
      have hresume : (Job.conduct H.engine).resume ⟨op, .fresh⟩ scope =
          (.finished (.error (.number c.complaint)), scope) := by
        simp only [Job.conduct, Job.resume, hsteps]
      refine ⟨.number c.complaint, ?_, hrefusal _ fun _ => rfl⟩
      simp only [guarded, hstopped, hresume, Bool.and_false, Bool.false_eq_true, if_false]
  | true =>
      refine ⟨.cancelled, ?_, hrefusal _ fun hnone => ?_⟩
      · simp only [guarded, hstopped, Bool.not_false, Bool.and_true, if_true]
      · -- Nothing is cancelled as long as nobody has failed.
        have hgoing : (Job.conduct H.engine).stopped scope = false := by
          rw [Conduct.stopped, (h.quiet hnone).2, Bool.false_or]
          exact H.not_cancelled _ h.still.peaceful
        exact absurd (hgoing.symm.trans hstopped) Bool.false_ne_true

theorem barred_keptByTurns :
    Group.KeptByTurns (Job.conduct H.engine) (Barred H first own) := by
  intro slot rest failure scope h
  rcases h.turn with ⟨error, hturn, hrefusal⟩
  rw [hturn]
  refine ⟨h.still, ?_, ?_, hrefusal⟩
  · intro slot' hslot'
    have hrest := (Multiset.mem_add.mp hslot').resolve_left (Multiset.notMem_zero slot')
    exact h.waiting slot' (Multiset.mem_cons_of_mem hrest)
  · intro hnone
    rcases Option.or_eq_none_iff.mp hnone with ⟨_, hnone⟩
    cases hnone

theorem barred_keptByWaking :
    Group.KeptByWaking (Job.conduct H.engine) (Barred H first own) := by
  intro slot rest failure scope h
  refine ⟨h.still, ?_, fun hnone => ⟨Multiset.cons_ne_zero, (h.quiet hnone).2⟩, h.refusal⟩
  intro slot' hslot'
  rcases Multiset.mem_cons.mp hslot' with rfl | hslot'
  · rcases h.waiting slot (Multiset.mem_cons_self _ _) with ⟨hstarted, hfresh, hsteps⟩
    refine ⟨hstarted, ?_, hsteps⟩
    change slot.task.stand.wake = .fresh
    rw [hfresh]
    rfl
  · exact h.waiting slot' (Multiset.mem_cons_of_mem hslot')

end Barred

variable {H : Host ρ} {project : Project} {service : Service}

/-- Operations none of which can begin are bound to be refused. -/
theorem inevitable_barred (pass : Pass) {first : ρ} (jobs : Group Job) (site : Site ρ)
    (h : Barred H first (ofService project service (H.store first).containers) jobs.slots
      jobs.failure ⟨jobs.tripped, site⟩) :
    Inevitable H.engine (Refuses H project service first) { pass with stage := afterJobs jobs }
      site := by
  refine inevitable_afterJobs pass barred_keptByTurns barred_keptByWaking
    (fun jobs _ => jobs.slots.card) (fun jobs _ => jobs.asleep.length) ?_ ?_ h
  · -- A turn takes its operation to the end, and arrivals leave nobody asleep.
    intro jobs site move h hmove
    cases move with
    | cancel => exact hmove.elim
    | fire =>
        have hslots : (jobs.rouse (Job.conduct H.engine).wake).slots.card = jobs.slots.card := by
          rw [Group.slots_rouse, Group.slots, ← Multiset.coe_add, Multiset.card_add,
            Multiset.card_add, Multiset.card_map]
        exact Or.inr ⟨Nat.le_of_eq hslots, List.length_pos_of_ne_nil hmove⟩
    | poll place =>
        have hslot : jobs.ready[place]? = some jobs.ready[place] :=
          List.getElem?_eq_getElem hmove
        rcases Group.poll_of_getElem? hslot (Job.conduct H.engine) site with
          ⟨rest, hslots, hafter, _⟩
        rw [hslots] at h
        rcases h.turn with ⟨error, hturn, _⟩
        left
        simp only [Group.step]
        rw [hafter, hslots, hturn, Multiset.card_add, Multiset.card_cons]
        exact Nat.lt_succ_of_le (Nat.le_of_eq (Nat.zero_add _))
  · intro jobs site h hslots
    cases hfailure : jobs.failure with
    | none => exact absurd hslots (h.quiet hfailure).1
    | some error =>
        rcases h.refusal error hfailure with ⟨c, hc, hmisnumbered, rfl⟩
        exact ⟨⟨c, hc, hmisnumbered, by rw [Group.outcome, hfailure]⟩, h.still.mutations⟩

/-! ### When a pass is bound to refuse -/

/-- An operation begins with a request that may change something, or cannot begin. -/
theorem operation_cases (b : Brief) (duty : Duty) :
    (∃ step rest, (duty.operation b).steps = .ok (step :: rest) ∧
      ∀ created, (step.request created).isMutation = true) ∨
    ∃ c, duty = .recreate c ∧ c.Misnumbered := by
  cases duty with
  | create number => exact Or.inl ⟨_, _, rfl, fun _ => rfl⟩
  | remove c => exact Or.inl ⟨_, _, rfl, fun _ => rfl⟩
  | restart c => exact Or.inl ⟨_, _, rfl, fun _ => rfl⟩
  | recreate c =>
      by_cases h : c.Misnumbered
      · exact Or.inr ⟨c, rfl, h⟩
      · rcases Numbering.numberOf_of_not_misnumbered h with ⟨number, hnumber⟩
        have hsteps : ((Duty.recreate c).operation b).steps =
            .ok (Operation.replacement b.project b.service b.grace c.summary number) := by
          rw [Duty.operation, Operation.recreate, hnumber]
          rfl
        exact Or.inl ⟨_, _, hsteps, fun _ => rfl⟩

/-- With as many containers as wanted the duties of a pass are the upkeep of them all. -/
theorem upkeep_of_count (pass : Pass) {cs : List Container}
    (h : (pass.listed cs).length = pass.service.desiredScale) :
    ∃ plan, pass.planFor cs = .ok plan ∧
      pass.duties plan.missing cs = (pass.listed cs).filterMap pass.upkeepDuty := by
  have hplan : pass.planFor cs = .ok ⟨[], [], (pass.listed cs).map (·.summary)⟩ :=
    Plan.ofListing_of_length_eq h
  refine ⟨_, hplan, ?_⟩
  rw [duties, excess, Plan.excessOf, if_pos (Nat.le_of_eq h), kept, Plan.keptOf,
    if_pos (Nat.le_of_eq h)]
  rfl

/-- If none of the upkeep can begin, it is to replace containers whose numbers cannot be read. -/
theorem replaces_of_barred {pass : Pass} {own : List Container}
    (hsome : own.filterMap pass.upkeepDuty ≠ [])
    (hbarred : ∀ duty ∈ own.filterMap pass.upkeepDuty, ∃ c, duty = .recreate c ∧ c.Misnumbered) :
    (∃ c ∈ own, pass.replaces c = true) ∧
      ∀ c ∈ own, (pass.replaces c = true → c.Misnumbered) ∧
        (pass.replaces c = false → c.state.isRunning = true) := by
  have hduty : ∀ c ∈ own, ∀ duty, pass.upkeepDuty c = some duty →
      pass.replaces c = true ∧ c.Misnumbered := by
    intro c hc duty hduty
    rcases hbarred duty (List.mem_filterMap.mpr ⟨c, hc, hduty⟩) with ⟨d, rfl, hmisnumbered⟩
    rcases upkeepDuty_cases hduty with ⟨hreplaces, hsame⟩ | ⟨_, _, hsame⟩
    · exact ⟨hreplaces, Duty.recreate.inj hsame ▸ hmisnumbered⟩
    · cases hsame
  refine ⟨?_, fun c hc => ?_⟩
  · rcases List.exists_mem_of_ne_nil _ hsome with ⟨duty, hmem⟩
    rcases List.mem_filterMap.mp hmem with ⟨c, hc, hupkeep⟩
    exact ⟨c, hc, (hduty c hc duty hupkeep).1⟩
  · cases hupkeep : pass.upkeepDuty c with
    | none =>
        rcases upkeepDuty_eq_none hupkeep with ⟨hkeeps, hrunning⟩
        refine ⟨fun hreplaces => ?_, fun _ => hrunning⟩
        rw [hkeeps] at hreplaces
        cases hreplaces
    | some duty =>
        rcases hduty c hc duty hupkeep with ⟨hreplaces, hmisnumbered⟩
        refine ⟨fun _ => hmisnumbered, fun hkeeps => ?_⟩
        rw [hreplaces] at hkeeps
        cases hkeeps

/-- If the numbers of all containers to be replaced cannot be read and all others run, none of the
    upkeep can begin. -/
theorem barred_of_replaces {pass : Pass} {own : List Container}
    (hsome : ∃ c ∈ own, pass.replaces c = true)
    (hall : ∀ c ∈ own, (pass.replaces c = true → c.Misnumbered) ∧
      (pass.replaces c = false → c.state.isRunning = true)) :
    own.filterMap pass.upkeepDuty ≠ [] ∧
      ∀ duty ∈ own.filterMap pass.upkeepDuty, ∃ c ∈ own, duty = .recreate c ∧ c.Misnumbered := by
  refine ⟨?_, fun duty hmem => ?_⟩
  · rcases hsome with ⟨c, hc, hreplaces⟩
    exact List.ne_nil_of_mem (List.mem_filterMap.mpr ⟨c, hc, if_pos hreplaces⟩)
  · rcases List.mem_filterMap.mp hmem with ⟨c, hc, hupkeep⟩
    rcases upkeepDuty_cases hupkeep with ⟨hreplaces, rfl⟩ | ⟨hkeeps, hstopped, _⟩
    · exact ⟨c, hc, rfl, (hall c hc).1 hreplaces⟩
    · rw [(hall c hc).2 hkeeps] at hstopped
      cases hstopped

/-- If a pass is bound to refuse although it reads no number to make its plan, there is an
    operation, and none of them can begin. -/
theorem barred_of_inevitable {pass : Pass} {s : Store} {duties : List Duty} {site : Site ρ}
    {first : ρ} (hstill : Still H first site.world)
    (hbound : Inevitable H.engine (Refuses H project service first)
      { pass with stage := afterJobs (.ofTasks ((duties.map (·.operation (pass.brief s))).map
        Job.fresh)) } site) :
    duties ≠ [] ∧ ∀ duty ∈ duties, ∃ c, duty = .recreate c ∧ c.Misnumbered := by
  refine ⟨?_, ?_⟩
  · rintro rfl
    cases hbound with
    | ended result hresult hrefuses =>
        rcases hrefuses.refused with ⟨_, _, _, rfl⟩
        cases hresult
    | later hmove _ =>
        rcases hmove with ⟨move, henabled⟩
        exact henabled
  · intro duty hduty
    rcases operation_cases (pass.brief s) duty with ⟨step, rest, hsteps, hmutation⟩ | hbarred
    · rcases List.mem_iff_getElem?.mp hduty with ⟨place, hplace⟩
      have hslot : (Group.ofTasks ((duties.map (·.operation (pass.brief s))).map
          Job.fresh)).ready[place]? = some ⟨Job.fresh (duty.operation (pass.brief s)), false⟩ := by
        simp only [Group.ofTasks, List.getElem?_map, hplace, Option.map_some]
      exact absurd hbound (not_inevitable_of_pressing hstill.peaceful hstill.mutations rfl hslot
        (.fresh _ step rest hsteps hmutation) fun result after hrefuses => hrefuses.unchanged)
    · exact hbarred

/-- Before any of them has had its turn, operations none of which can begin are barred. -/
theorem barred_ofTasks (b : Brief) {first : ρ} {own : List Container} {duties : List Duty}
    {site : Site ρ} (hstill : Still H first site.world) (hsome : duties ≠ [])
    (hbarred : ∀ duty ∈ duties, ∃ c ∈ own, duty = .recreate c ∧ c.Misnumbered) :
    Barred H first own
      (Group.ofTasks ((duties.map (·.operation b)).map Job.fresh)).slots none ⟨false, site⟩ := by
  refine ⟨hstill, fun slot hslot => ?_, fun _ => ⟨?_, rfl⟩, fun error herror => ?_⟩
  · rw [Group.slots_ofTasks, Multiset.mem_map] at hslot
    rcases hslot with ⟨job, hjob, rfl⟩
    simp only [Multiset.mem_coe, List.mem_map] at hjob
    rcases hjob with ⟨_, ⟨duty, hduty, rfl⟩, rfl⟩
    rcases hbarred duty hduty with ⟨c, hc, rfl, hmisnumbered⟩
    refine ⟨rfl, rfl, c, hc, hmisnumbered, ?_⟩
    simp only [Job.fresh, Duty.operation, Operation.recreate,
      Numbering.numberOf_of_misnumbered hmisnumbered, Except.map]
  · rw [Group.slots_ofTasks, Multiset.map_coe, ne_eq, Multiset.coe_eq_zero]
    simp only [List.map_eq_nil_iff]
    exact hsome
  · cases herror

/-- A pass over a service with a container whose number cannot be read is bound to refuse,
    changing nothing, if and only if there are too few or too many containers, or some containers
    are to be replaced, the number of none of these can be read, and all others run. -/
theorem inevitably_refuses_iff (H : Host ρ) (project : Project) (service : Service)
    (grace : Option Nat) (marks : Marks) (site : Site ρ) (hpeaceful : H.peaceful site.world)
    (hclean : (H.store site.world).pending = fun _ => none)
    (hadmits : ∀ dependency ∈ service.healthDependencies,
      Admits project.name dependency (H.store site.world).containers)
    (hmisnumbered : ∃ c ∈ ofService project service (H.store site.world).containers,
      c.Misnumbered) :
    let pass := start project service grace marks
    let own := ofService project service (H.store site.world).containers
    Inevitable H.engine (Refuses H project service site.world) pass site ↔
      own.length ≠ service.desiredScale ∨
      (∃ c ∈ own, pass.replaces c = true) ∧
        ∀ c ∈ own, (pass.replaces c = true → c.Misnumbered) ∧
          (pass.replaces c = false → c.state.isRunning = true) := by
  intro pass own
  have hlisted : pass.listed (H.store site.world).containers = own := rfl
  have hbound : BoundFor H.engine
      (HasListed (H.store site.world).containers (Still H site.world) pass) pass site :=
    boundFor_start (still_sees H site.world) project service grace marks hadmits
      ⟨hpeaceful, hclean, rfl, rfl⟩
  by_cases hcount : own.length = service.desiredScale
  · rcases upkeep_of_count pass hcount with ⟨plan, hplan, hduties⟩
    have hafter := afterListing_eq pass (H.store site.world)
    rw [hplan] at hafter
    simp only [hduties, hlisted] at hafter
    constructor
    · intro hrefuses
      rcases hrefuses.exists_of_boundFor hbound with ⟨_, site', ⟨rfl, hstill⟩, hinevitable⟩
      rw [hlisted, hafter] at hinevitable
      rcases barred_of_inevitable hstill hinevitable with ⟨hsome, hbarred⟩
      exact Or.inr (replaces_of_barred hsome hbarred)
    · intro h
      rcases h.resolve_left fun hne => hne hcount with ⟨hreplaces, hall⟩
      rcases barred_of_replaces hreplaces hall with ⟨hsome, hbarred⟩
      refine hbound.inevitable ?_
      rintro _ site' ⟨rfl, hstill⟩
      rw [hlisted, hafter]
      exact inevitable_barred pass _ site' (barred_ofTasks (pass.brief _) hstill hsome hbarred)
  · refine iff_of_true ?_ (Or.inl hcount)
    rcases Plan.ofListing_error hcount hmisnumbered with ⟨c, hc, hmis, herror⟩
    refine hbound.inevitable ?_
    rintro _ site' ⟨rfl, hstill⟩
    have hplan : pass.planFor (H.store site.world).containers = .error c.complaint := herror
    rw [afterListing_eq, hplan]
    exact .ended _ rfl ⟨⟨c, hc, hmis, rfl⟩, hstill.mutations⟩

end Pass

/-! ### A container without a number -/

namespace Sample

/-- A container of the service that has no number. -/
def strayed : Container :=
  { container with
    id := "fedcba9876543210"
    name := "demo_web_x"
    labels := Dict.ofList
      [(Labels.projectKey, "demo"), (Labels.serviceKey, "web"), (Labels.numberKey, "x")] }

/-- A site with two containers of the service, one of them without a number. -/
def straySite : Site Drill := ⟨⟨(Store.empty.seed container).seed strayed, false, 0, []⟩, .fresh,
  false⟩

/-- The service as it wants two containers. -/
def paired : Service := { service with scale := 2 }

theorem misnumbered_strayed (scaled : Service) (hname : scaled.name = service.name) :
    ∃ c ∈ ofService project scaled straySite.world.store.containers, c.Misnumbered := by
  refine ⟨strayed, List.mem_filter.mpr ⟨List.mem_pair.mpr (Or.inr rfl), ?_⟩, rfl⟩
  rw [hname]
  decide

end Sample

section Samples

open Sample

/-- A pass that is to remove one of two containers is bound to refuse if one of them has no
    number. -/
theorem refuses_sample :
    (∃ c ∈ ofService project service straySite.world.store.containers, c.Misnumbered) ∧
    Pass.Inevitable Drill.host.engine
      (Pass.Refuses Drill.host project service straySite.world)
      (.start project service none .none) straySite :=
  ⟨misnumbered_strayed service rfl,
    (Pass.inevitably_refuses_iff Drill.host project service none .none straySite ⟨rfl, rfl⟩ rfl
      (fun _ hdependency => absurd hdependency List.not_mem_nil)
      (misnumbered_strayed service rfl)).mpr (Or.inl (by decide))⟩

/-- A pass that is to replace two containers, one of which has no number, replaces the other one
    before it refuses. -/
theorem not_refuses_sample :
    (∃ c ∈ ofService project paired straySite.world.store.containers, c.Misnumbered) ∧
    paired.healthDependencies = [] ∧ Drill.host.peaceful straySite.world ∧
    (straySite.world.store.pending = fun _ => none) ∧ straySite.world.store.mutations = [] ∧
    (Pass.run Drill.host.engine 3 (.start project paired none .none) straySite).map
      (fun after => (after.1, after.2.2.world.store.mutations.map (·.verb))) =
      some (.error (.number strayed.complaint), [.stop, .rename, .create, .start, .remove]) := by
  refine ⟨misnumbered_strayed paired rfl, rfl, ⟨rfl, rfl⟩, rfl, rfl, ?_⟩
  decide +kernel

end Samples

end Fleet
