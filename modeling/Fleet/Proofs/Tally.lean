import Fleet.Proofs.Interleaving
import Fleet.Proofs.Minutes
import Fleet.Proofs.Sample

/-!
# The lines of a pass add up

Whoever watches a pass sees the lines of its operations in one stream, in which they do not
tell whose they are. Still the stream can be counted. Of each kind there are never more lines
at the end of an operation than at the beginning of one, at no moment at which somebody may
look, and in the end what has begun and is not done has failed, as a line says, or was
dropped, as no line does.

Lines come from turns, and a turn makes its lines at once (`Bout.events`). So the stream is
cut where turns end, and there the minutes count operations instead of lines
(`countP_events`). A moment inside a turn is no trouble: the line that may be missing then is
the last one of the turn (`Bout.prefix_events`).

A pass that succeeds has carried out its plan, and then the count of each kind is that of the
plan, by way of the containers listed.

## Main definitions

* `Event.begins`, `Event.ends`, `Event.fails`: The lines of an operation.
* `Pass.quota`: How many operations of a kind a pass has to carry out.

## Theorems

* `countP_events`: Lines are counted by counting operations.
* `count_ends_le`: At no moment more is done than has begun.
* `Plan.countP_operations`: How many operations of a kind a plan has.
* `Pass.events_add_up`: The lines of a pass add up.
-/

namespace Fleet

variable {ρ : Type}

/-! ### Lines -/

namespace OperationKind

theorem beginning_inj {kind kind' : OperationKind} (h : kind.beginning = kind'.beginning) :
    kind = kind' := by
  revert h
  cases kind <;> cases kind' <;> decide

theorem ending_inj {kind kind' : OperationKind} (h : kind.ending = kind'.ending) :
    kind = kind' := by
  revert h
  cases kind <;> cases kind' <;> decide

end OperationKind

namespace Event

/-- An operation of a kind has begun. -/
def begins (service : String) (kind : OperationKind) : Event :=
  .ofService service .working kind.beginning

/-- An operation of a kind is done. -/
def ends (service : String) (kind : OperationKind) : Event :=
  .ofService service .done kind.ending

/-- An operation has failed. -/
def fails (service : String) : Event := .ofService service .failed "Error"

end Event

/-- Whoever watches gets what is sent. -/
theorem Channel.foldl_send (sent events : List Event) :
    events.foldl send ⟨sent, true⟩ = ⟨sent ++ events, true⟩ := by
  induction events generalizing sent with
  | nil => rw [List.append_nil]; rfl
  | cons event events ih =>
      rw [List.foldl_cons, List.append_cons]
      exact ih (sent ++ [event])

/-! ### Counting lines -/

namespace Bout

variable {bout : Bout} {op : Operation}

theorem eq_of_begun? (h : bout.begun? = some op) : bout.job.operation = op := by
  unfold begun? at h
  split at h
  · cases h
  · cases h
  · split at h
    · cases h
    · exact Option.some.inj h

theorem eq_of_done? (h : bout.done? = some op) : bout.job.operation = op := by
  unfold done? at h
  split at h
  · exact Option.some.inj h
  · cases h

theorem eq_of_failed? (h : bout.failed? = some op) : bout.job.operation = op := by
  unfold failed? at h
  split at h
  · exact Option.some.inj h
  · cases h

end Bout

/-- Lines are counted by counting operations. -/
theorem countP_events (p : Event → Bool) (past : List Bout) :
    (past.flatMap Bout.events).countP p =
      (past.filterMap Bout.begun?).countP (fun op => p (op.event .working op.kind.beginning)) +
      (past.filterMap Bout.done?).countP (fun op => p (op.event .done op.kind.ending)) +
      (past.filterMap Bout.failed?).countP (fun op => p (op.event .failed "Error")) := by
  simp only [List.filterMap_eq_flatMap_toList, List.countP_flatMap, ← List.sum_map_add]
  refine congrArg List.sum (List.map_congr_left fun bout _ => ?_)
  simp only [Function.comp_apply, Bout.events, List.countP_append, List.countP_map]
  rfl

section Counting

variable {past : List Bout} {service : String}

theorem service_of_mem_filterMap {f : Bout → Option Operation}
    (hf : ∀ {bout op}, f bout = some op → bout.job.operation = op)
    (hservice : ∀ bout ∈ past, bout.job.operation.service = service) :
    ∀ op ∈ past.filterMap f, op.service = service := by
  intro op hop
  rcases List.mem_filterMap.mp hop with ⟨bout, hbout, hsome⟩
  rw [← hf hsome]
  exact hservice bout hbout

/-- Lines of a status and a kind are counted by counting operations of the kind. -/
theorem countP_event {ops : List Operation} (hservice : ∀ op ∈ ops, op.service = service)
    {text : OperationKind → String} (hinj : ∀ {kind kind'}, text kind = text kind' → kind = kind')
    (status : Status) (kind : OperationKind) :
    ops.countP (fun op => op.event status (text op.kind) ==
      .ofService service status (text kind)) = ops.countP (·.kind = kind) := by
  refine List.countP_congr fun op hop => ?_
  rw [beq_iff_eq, decide_eq_true_iff, Operation.event, hservice op hop]
  exact ⟨fun h => hinj (congrArg Event.text h), fun h => by rw [h]⟩

theorem countP_event_of_ne (status : Status) (event : Event) (hne : status ≠ event.status)
    (ops : List Operation) (text : Operation → String) :
    ops.countP (fun op => op.event status (text op) == event) = 0 := by
  refine List.countP_eq_zero.mpr fun op _ h => hne ?_
  rw [← beq_iff_eq.mp h]
  rfl

theorem count_begins (hservice : ∀ bout ∈ past, bout.job.operation.service = service)
    (kind : OperationKind) : (past.flatMap Bout.events).count (.begins service kind) =
      (past.filterMap Bout.begun?).countP (·.kind = kind) := by
  rw [List.count_eq_countP, countP_events,
    countP_event_of_ne .done (.begins service kind) nofun,
    countP_event_of_ne .failed (.begins service kind) nofun]
  exact countP_event (service_of_mem_filterMap Bout.eq_of_begun? hservice)
    OperationKind.beginning_inj .working kind

theorem count_ends (hservice : ∀ bout ∈ past, bout.job.operation.service = service)
    (kind : OperationKind) : (past.flatMap Bout.events).count (.ends service kind) =
      (past.filterMap Bout.done?).countP (·.kind = kind) := by
  rw [List.count_eq_countP, countP_events,
    countP_event_of_ne .working (.ends service kind) nofun,
    countP_event_of_ne .failed (.ends service kind) nofun, zero_add]
  exact countP_event (service_of_mem_filterMap Bout.eq_of_done? hservice)
    OperationKind.ending_inj .done kind

/-- Lines of a status are counted by counting operations, whatever their kinds. -/
theorem countP_status (past : List Bout) (status : Status) :
    (past.flatMap Bout.events).countP (·.status = status) =
      match status with
      | .working => (past.filterMap Bout.begun?).length
      | .done => (past.filterMap Bout.done?).length
      | .failed => (past.filterMap Bout.failed?).length := by
  have hall : ∀ (ops : List Operation) (status : Status) (text : Operation → String),
      ops.countP (fun op => decide ((op.event status (text op)).status = status)) = ops.length :=
    fun ops _ _ => List.countP_eq_length.mpr fun _ _ => decide_eq_true rfl
  have hnone : ∀ (status status' : Status), status ≠ status' →
      ∀ (ops : List Operation) (text : Operation → String),
        ops.countP (fun op => decide ((op.event status (text op)).status = status')) = 0 :=
    fun _ _ hne _ _ => List.countP_eq_zero.mpr fun _ _ h => hne (of_decide_eq_true h)
  rw [countP_events]
  cases status with
  | working =>
      rw [hall, hnone .done .working nofun, hnone .failed .working nofun]
      rfl
  | done =>
      rw [hall, hnone .working .done nofun, hnone .failed .done nofun, zero_add]
      rfl
  | failed =>
      rw [hall, hnone .working .failed nofun, hnone .done .failed nofun, zero_add, zero_add]

end Counting

/-! ### Moments -/

/-- Before its last line a turn only says that its operation begins. -/
theorem Bout.prefix_events {bout : Bout} {first : List Event} (h : first <+: bout.events) :
    first = bout.events ∨ ∀ event ∈ first, event.status = .working := by
  have hopening : ∀ event ∈ bout.begun?.toList.map
      (fun op => op.event .working op.kind.beginning), event.status = .working := by
    intro event hevent
    rcases List.mem_map.mp hevent with ⟨op, _, rfl⟩
    rfl
  have hclosing : (bout.done?.toList.map (fun op => op.event .done op.kind.ending) ++
      bout.failed?.toList.map (·.event .failed "Error")).length ≤ 1 := by
    rcases bout with ⟨job, fate⟩
    cases fate with
    | ended result =>
        cases result with
        | ok => exact Nat.le_refl 1
        | error error =>
            cases error with
            | runtime cause => exact Nat.le_refl 1
            | _ => exact Nat.zero_le 1
    | _ => exact Nat.zero_le 1
  rw [events, List.append_assoc] at h ⊢
  rcases List.prefix_or_prefix_of_prefix h (List.prefix_append _ _) with hfirst | ⟨q, rfl⟩
  · exact Or.inr fun event hevent => hopening event (hfirst.subset hevent)
  · have hq := (List.prefix_append_right_inj _).mp h
    cases q with
    | nil =>
        rw [List.append_nil]
        exact Or.inr hopening
    | cons event q =>
        rw [hq.eq_of_length_le (by rw [List.length_cons]; omega)]
        exact Or.inl rfl

/-- At no moment more is done than has begun, if that is so whenever a turn ends. -/
theorem count_ends_le {past : List Bout} {service : String}
    (hservice : ∀ bout ∈ past, bout.job.operation.service = service)
    (horderly : ∀ first, first <+: past →
      (first.filterMap Bout.done? : Multiset Operation) ≤ first.filterMap Bout.begun?)
    {first : List Event} (hfirst : first <+: past.flatMap Bout.events) (kind : OperationKind) :
    first.count (.ends service kind) ≤ first.count (.begins service kind) := by
  -- The induction is on the turns, from the last one backwards.
  induction past using List.reverseRecOn generalizing first with
  | nil =>
      rw [List.prefix_nil.mp hfirst]
      exact Nat.le_refl _
  | append_singleton past bout ih =>
      have hpast : ∀ first, first <+: past.flatMap Bout.events →
          first.count (.ends service kind) ≤ first.count (.begins service kind) :=
        fun _ => ih (fun bout hbout => hservice bout (List.mem_append_left _ hbout))
          fun first hfirst => horderly first (hfirst.trans (List.prefix_append past [bout]))
      rw [List.flatMap_append, List.flatMap_singleton] at hfirst
      rcases List.prefix_or_prefix_of_prefix hfirst (List.prefix_append _ _) with hbefore | ⟨q, rfl⟩
      · exact hpast first hbefore
      · rcases Bout.prefix_events ((List.prefix_append_right_inj _).mp hfirst) with rfl | hworking
        · rw [← List.flatMap_singleton (f := Bout.events), ← List.flatMap_append,
            count_ends hservice, count_begins hservice]
          have hle := Multiset.countP_le_of_le (·.kind = kind) (horderly _ List.prefix_rfl)
          rw [Multiset.coe_countP, Multiset.coe_countP] at hle
          exact hle
        · have hnone : q.count (.ends service kind) = 0 := by
            refine List.count_eq_zero.mpr fun hmem => ?_
            cases hworking _ hmem
          rw [List.count_append, List.count_append, hnone]
          exact (hpast _ List.prefix_rfl).trans (Nat.le_add_right _ _)

/-! ### Plans -/

namespace Plan

variable {plan : Plan} {project : String} {service : Service} {grace : Option Nat} {forced : Bool}

theorem service_of_mem_operations {op : Operation}
    (h : op ∈ plan.operations project service grace forced) : op.service = service.name := by
  rcases List.mem_append.mp h with h | h
  · rcases List.mem_append.mp h with h | h
    · rcases List.mem_map.mp h with ⟨number, _, rfl⟩
      rfl
    · rcases List.mem_map.mp h with ⟨c, _, rfl⟩
      rfl
  · rcases List.mem_filterMap.mp h with ⟨c, _, hc⟩
    unfold upkeep at hc
    split at hc
    · rw [← Option.some.inj hc]
      rfl
    · split at hc
      · cases hc
      · rw [← Option.some.inj hc]
        rfl

theorem countP_kind_map {α : Type} {f : α → Operation} (l : List α) (kind' kind : OperationKind)
    (hf : ∀ a, (f a).kind = kind') :
    (l.map f).countP (·.kind = kind) = if kind' = kind then l.length else 0 := by
  rw [List.countP_map]
  split
  · exact List.countP_eq_length.mpr fun a _ => decide_eq_true ((hf a).trans ‹_›)
  · exact List.countP_eq_zero.mpr fun a _ h => ‹¬_› ((hf a).symm.trans (of_decide_eq_true h))

/-- How many operations of a kind a plan has. -/
theorem countP_operations (plan : Plan) (project : String) (service : Service)
    (grace : Option Nat) (forced : Bool) (kind : OperationKind) :
    (plan.operations project service grace forced).countP (·.kind = kind) =
      match kind with
      | .create => plan.missing.length
      | .remove => plan.excess.length
      | .recreate => plan.kept.countP fun c => isDrifted service c || forced
      | .restart => plan.kept.countP fun c =>
        !(isDrifted service c || forced) && !c.state.isRunning := by
  have hcreate : (plan.missing.map fun number => Operation.create project service
      (containerName project service.name number) number).countP (·.kind = kind) =
        if .create = kind then plan.missing.length else 0 :=
          countP_kind_map plan.missing .create kind fun _ => rfl
  have hremove : (plan.excess.map (Operation.remove service grace)).countP (·.kind = kind) =
      if .remove = kind then plan.excess.length else 0 :=
        countP_kind_map plan.excess .remove kind fun _ => rfl
  have hupkeep : ∀ c, ((upkeep project service grace forced c).map
      fun op => decide (op.kind = kind)).getD false =
        match kind with
        | .recreate => isDrifted service c || forced
        | .restart => !(isDrifted service c || forced) && !c.state.isRunning
        | _ => false := by
    intro c
    unfold upkeep
    cases isDrifted service c || forced <;> cases c.state.isRunning <;> cases kind <;> rfl
  rw [operations, List.countP_append, List.countP_append, hcreate, hremove, List.countP_filterMap]
  simp only [hupkeep]
  cases kind with
  | create => simp
  | remove => simp
  | recreate => simp
  | restart => simp

end Plan

/-! ### Passes -/

section Minutes

variable {operations : List Operation} {before site : Site ρ} {past : List Bout}
  {failure : Option Error}

/-- At the end nothing is under way. -/
theorem Minutes.length_begun (h : Minutes operations before past 0 failure site) :
    (past.filterMap Bout.begun?).length = (past.filterMap Bout.done?).length +
      (past.filterMap Bout.failed?).length + (past.filterMap Bout.dropped?).length := by
  have hbalance := congrArg Multiset.card h.balance
  rw [underway, Multiset.zero_bind, add_zero, Multiset.card_add, Multiset.card_add] at hbalance
  exact hbalance

/-- An operation that has not failed has no further turn only if it is done. -/
theorem Bout.over?_eq_done? {bout : Bout} (h : bout.fate.failure? = none) :
    bout.over? = bout.done? ∧ bout.failed? = none ∧ bout.dropped? = none := by
  rcases bout with ⟨job, fate⟩
  cases fate with
  | paused => exact ⟨rfl, rfl, rfl⟩
  | ended result =>
      cases result with
      | ok => exact ⟨rfl, rfl, rfl⟩
      | error error => cases h
  | _ => cases h

/-- If nothing has failed all operations have begun and are done. -/
theorem Minutes.complete (h : Minutes operations before past 0 none site) :
    (past.filterMap Bout.begun?).Perm operations ∧ (past.filterMap Bout.done?).Perm operations ∧
      past.filterMap Bout.failed? = [] := by
  have hfates : ∀ bout ∈ past, bout.over? = bout.done? ∧ bout.failed? = none ∧
      bout.dropped? = none := fun bout hbout => Bout.over?_eq_done? (h.failure rfl bout hbout)
  have hfailed : past.filterMap Bout.failed? = [] :=
    List.filterMap_eq_nil_iff.mpr fun bout hbout => (hfates bout hbout).2.1
  have hdropped : past.filterMap Bout.dropped? = [] :=
    List.filterMap_eq_nil_iff.mpr fun bout hbout => (hfates bout hbout).2.2
  have hover := h.finished
  have hbalance := h.balance
  rw [List.filterMap_congr fun bout hbout => (hfates bout hbout).1, Multiset.map_zero,
    add_zero] at hover
  rw [Balanced, hfailed, hdropped, underway, Multiset.zero_bind, Multiset.coe_nil, add_zero,
    add_zero, add_zero] at hbalance
  exact ⟨Multiset.coe_eq_coe.mp (hbalance.trans hover), Multiset.coe_eq_coe.mp hover, hfailed⟩

end Minutes

namespace Pass

/-- How many operations of a kind a pass has to carry out that was told of certain containers and
    made a plan for them. -/
def quota (pass : Pass) (listing : List Summary) (plan : Plan) : OperationKind → Nat
  | .create => pass.service.desiredScale - listing.length
  | .remove => listing.length - pass.service.desiredScale
  | .recreate => plan.kept.countP fun c =>
    Plan.isDrifted pass.service c || pass.marks.forces pass.service
  | .restart => plan.kept.countP fun c =>
    !(Plan.isDrifted pass.service c || pass.marks.forces pass.service) && !c.state.isRunning

/-- The operations of a pass are those of a plan for the containers listed. -/
theorem exists_plan_of_operations {pass : Pass} {listing : List Summary}
    {operations : List Operation} (h : pass.operations listing = .ok operations) :
    (∀ op ∈ operations, op.service = pass.service.name) ∧
      ∃ plan, Plan.ofListing listing pass.service.desiredScale = .ok plan ∧
        ∀ kind, operations.countP (·.kind = kind) = pass.quota listing plan kind := by
  unfold Pass.operations at h
  cases hplan : Plan.ofListing listing pass.service.desiredScale with
  | error cause =>
      rw [hplan] at h
      cases h
  | ok plan =>
      rw [hplan] at h
      rw [← Except.ok.inj h]
      refine ⟨fun op hop => Plan.service_of_mem_operations hop, plan, rfl, fun kind => ?_⟩
      rw [Plan.countP_operations]
      cases kind with
      | create => exact (Plan.divides hplan).2
      | remove => exact Plan.length_excess hplan
      | _ => rfl

/-- The answer to a listing has been recorded. -/
def Recorded (filter : LabelFilter) (answer : Except RuntimeError (List Summary))
    (r : Recording ρ) : Prop :=
  (⟨.list filter, answer⟩ : Call) ∈ r.calls

theorem remembers_recorded (E : Engine ρ) (filter : LabelFilter) :
    Remembers E.recorded filter (Recorded filter) := by
  refine ⟨fun answer q r h => ?_, fun _ _ h => h, fun r => ?_⟩
  · rw [Recorded, E.recorded_calls]
    exact List.mem_append_left _ h
  · rw [Recorded, E.recorded_calls]
    exact List.mem_append_right _ (List.mem_singleton_self _)

/-- A line says that an operation has begun, or how it has ended. -/
theorem form_of_mem_events {past : List Bout} {service : String}
    (hservice : ∀ bout ∈ past, bout.job.operation.service = service) {event : Event}
    (h : event ∈ past.flatMap Bout.events) :
    (∃ kind, event = .begins service kind ∨ event = .ends service kind) ∨
      event = .fails service := by
  rcases List.mem_flatMap.mp h with ⟨bout, hbout, hevent⟩
  have hown := hservice bout hbout
  rcases List.mem_append.mp hevent with hevent | hevent
  · rcases List.mem_append.mp hevent with hevent | hevent
    · rcases List.mem_map.mp hevent with ⟨op, hop, rfl⟩
      rw [Bout.eq_of_begun? (Option.mem_toList.mp hop)] at hown
      exact Or.inl ⟨op.kind, Or.inl (by rw [← hown]; rfl)⟩
    · rcases List.mem_map.mp hevent with ⟨op, hop, rfl⟩
      rw [Bout.eq_of_done? (Option.mem_toList.mp hop)] at hown
      exact Or.inl ⟨op.kind, Or.inr (by rw [← hown]; rfl)⟩
  · rcases List.mem_map.mp hevent with ⟨op, hop, rfl⟩
    rw [Bout.eq_of_failed? (Option.mem_toList.mp hop)] at hown
    exact Or.inr (by rw [← hown]; rfl)

/-- What the lines of a pass come from, at every moment. -/
theorem lines_of_told {Heard : Except RuntimeError (List Summary) → ρ → Prop} {pass : Pass}
    {before site : Site ρ} {past : List Bout} {stage : Stage}
    (h : Told Heard pass before past stage site) :
    site.channel = (past.flatMap Bout.events).foldl Channel.send before.channel ∧
      (∀ bout ∈ past, bout.job.operation.service = pass.service.name) ∧
      ∀ first, first <+: past →
        (first.filterMap Bout.done? : Multiset Operation) ≤ first.filterMap Bout.begun? := by
  rcases h.silent_or_kept with hsilent | ⟨_, _, listing, operations, _, hoperations, hminutes⟩
  · rw [hsilent.past, hsilent.channel]
    refine ⟨rfl, fun _ hbout => absurd hbout List.not_mem_nil, fun first hfirst => ?_⟩
    rw [List.prefix_nil.mp hfirst]
    exact le_refl _
  · exact ⟨hminutes.channel, fun bout hbout => (exists_plan_of_operations hoperations).1 _
      (Multiset.mem_coe.mp (hminutes.known bout hbout)), hminutes.orderly⟩

/-- Whatever the engine does, whatever fails, whenever the work is ended and whatever the order of
    moves, the lines of a pass add up. At no moment there have been more lines at the end of
    operations of a kind than at their beginning. When the pass is at its end, what has begun is
    done, has failed, or was dropped. If it has succeeded no line says that something has failed,
    and of each kind as many operations have begun, and are done, as its plan has for the
    containers that it was told of. -/
theorem events_add_up (E : Engine ρ) (project : Project) (service : Service)
    (grace : Option Nat) (marks : Marks) (w : ρ) (sent : List Event) (recreated : Bool)
    (moves : List Move) :
    let pass := start project service grace marks
    let site : Site (Recording ρ) := ⟨.start E w, ⟨sent, true⟩, recreated⟩
    let after := play E.recorded moves pass site
    let dropped := (bouts E.recorded moves pass site).filterMap Bout.dropped?
    ∃ events, after.2.channel = ⟨sent ++ events, true⟩ ∧
      (∀ event ∈ events, (∃ kind, event = .begins service.name kind ∨
        event = .ends service.name kind) ∨ event = .fails service.name) ∧
      (∀ first, first <+: events → ∀ kind,
        first.count (.ends service.name kind) ≤ first.count (.begins service.name kind)) ∧
      (after.1.result? ≠ none → events.countP (·.status = .working) =
        events.countP (·.status = .done) + events.countP (·.status = .failed) + dropped.length) ∧
      (after.1.result? = some (.ok ()) → .fails service.name ∉ events ∧
        ∃ listing plan, (⟨.list pass.filter, .ok listing⟩ : Call) ∈ after.2.world.calls ∧
          Plan.ofListing listing service.desiredScale = .ok plan ∧
          ∀ kind, events.count (.begins service.name kind) = pass.quota listing plan kind ∧
            events.count (.ends service.name kind) = pass.quota listing plan kind) := by
  intro pass site after dropped
  have htold : Told (Recorded pass.filter) pass site (bouts E.recorded moves pass site)
      after.1.stage after.2 :=
    told_play project service grace marks (remembers_recorded E pass.filter) site moves
  rcases lines_of_told htold with ⟨hchannel, hservice, horderly⟩
  refine ⟨(bouts E.recorded moves pass site).flatMap Bout.events,
    hchannel.trans (Channel.foldl_send _ _), fun event => form_of_mem_events hservice,
    fun first hfirst kind => count_ends_le hservice horderly hfirst kind, ?_, ?_⟩
  · intro hended
    rw [countP_status, countP_status, countP_status]
    rcases hresult : after.1.result? with _ | result
    · exact absurd hresult hended
    rw [stage_of_result hresult] at htold
    rcases htold with ⟨hsilent, _⟩ | ⟨failure, ⟨_, _, _, _, hminutes⟩, _⟩
    · simp only [dropped, hsilent.past]
      rfl
    · exact hminutes.length_begun
  · intro hok
    rw [stage_of_result hok] at htold
    rcases htold with ⟨_, error, herror⟩ | ⟨failure, ⟨listing, operations, hheard, hoperations,
      hminutes⟩, hnone⟩
    · cases herror
    rw [hnone rfl] at hminutes
    rcases hminutes.complete with ⟨hbegun, hdone, hfailed⟩
    rcases (exists_plan_of_operations hoperations).2 with ⟨plan, hplan, hquota⟩
    refine ⟨?_, listing, plan, hheard, hplan, fun kind => ⟨?_, ?_⟩⟩
    · have hcount := countP_status (bouts E.recorded moves pass site) .failed
      rw [hfailed] at hcount
      intro hmem
      exact absurd rfl (List.countP_eq_zero.mp hcount _ hmem)
    · exact (count_begins hservice kind).trans ((hbegun.countP_eq _).trans (hquota kind))
    · exact (count_ends hservice kind).trans ((hdone.countP_eq _).trans (hquota kind))

-- A replacement whose new container does not start.
example : (play Drill.host.engine [.poll 0, .poll 0] Sample.pass
    ⟨Sample.faulty, .fresh, false⟩).2.channel.sent =
      [.begins "web" .recreate, .fails "web"] := rfl

end Pass

end Fleet
