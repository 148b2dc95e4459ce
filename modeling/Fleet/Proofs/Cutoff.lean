import Fleet.Proofs.History
import Fleet.Proofs.Token

/-!
# What still happens after the end of the work

The caller can end the work at any moment, and what is then on its way is not called back.
`LastTurns` says what may still happen to the world: each task that has begun has at most
one more turn, and nobody else does anything. A turn is what a task does up to the point at
which it has to wait. If the work is ended in the middle of a turn, by what happens at a
request, this is the last turn of the task, which is out at the end of it (`OneTurn`).

The tasks are those of the stage that a rollout has come to, gates or operations, or the
listing (`Pass.slots`). A later stage has only tasks that have not begun, and so has the
pass of a later service, which is why the last turns of a rollout are those of the tasks
in flight when the work is ended.

The proof goes from the first move to the last. Whatever may happen after a move is what
may happen before it (`Group.lastTurns_step`), since the move is a last turn, or changes
nothing.

## Main definitions

* `Task`, `Task.act`: A task of a pass, and what a turn of it does.
* `Pass.slots`, `Rollout.inFlight`: The tasks of a stage, and those of a rollout that have begun.
* `LastTurns`: What may still happen after the end of the work.
* `OneTurn`: What a move may do.

## Theorems

* `LastTurns.idle`: If nothing is in flight, nothing is asked for and nothing is said.
* `Group.lastTurns_step`: A move of a group after the end of the work.
* `Rollout.lastTurns_play`: What happens to a rollout after the end of the work.
* `Rollout.oneTurn_step`: A move is a turn of one task at the most.
-/

namespace Fleet

variable {σ W ρ : Type}

/-! ### Tasks -/

/-- A task of a pass. -/
inductive Task
  | gate (project : String) (watch : Gate.Watch)
  | listing (filter : LabelFilter) (errand : Errand (List Summary))
  | operation (job : Job)

namespace Task

/-- What a turn of a task does. -/
def act (E : Engine ρ) (site : Site ρ) : Task → Site ρ
  | gate project watch =>
    { site with world := (watch.resume E project ⟨false, site.world⟩).2.world }
  | listing filter errand =>
    { site with world := (Errand.resume E (.list filter) errand site.world).2 }
  | operation job => (job.resume E site).2

/-- What the task waits for happens. -/
def wake : Task → Task
  | gate project watch => gate project { watch with gate := watch.gate.wake }
  | listing filter errand => listing filter errand.wake
  | operation job => operation job.wake

end Task

/-- The tasks among those given that have begun. -/
def going (slots : Multiset (Slot σ)) : Multiset σ :=
  (slots.filter (·.started = true)).map (·.task)

/-- The tasks of a stage, in a project and for the containers that a filter selects. -/
def Stage.slots (project : String) (filter : LabelFilter) : Stage → Multiset (Slot Task)
  | .gating gates => gates.slots.map (Slot.map (.gate project))
  | .listing started _ errand => {⟨.listing filter errand, started⟩}
  | .working jobs => jobs.slots.map (Slot.map .operation)
  | .ended _ => 0

/-- The tasks of the stage that a pass has come to. -/
def Pass.slots (pass : Pass) : Multiset (Slot Task) :=
  pass.stage.slots pass.project.name pass.filter

namespace Rollout

/-- The tasks of the pass that a rollout has come to. -/
def slots : Rollout → Multiset (Slot Task)
  | passing pass _ => pass.slots
  | ended _ => 0

/-- The tasks of a rollout that have begun. -/
def inFlight (rollout : Rollout) : Multiset Task := going rollout.slots

end Rollout

/-- What may still happen after the end of the work, given the tasks that have begun: at most one
    more turn of each. -/
inductive LastTurns (E : Engine ρ) : Multiset Task → Site ρ → Site ρ → Prop
  | still (tasks : Multiset Task) (site : Site ρ) : LastTurns E tasks site site
  -- A task has its last turn.
  | turn {task : Task} {others : Multiset Task} {site last : Site ρ} :
    LastTurns E others (task.act E site) last → LastTurns E (task ::ₘ others) site last
  -- What a task waits for happens.
  | wake {task : Task} {others : Multiset Task} {site last : Site ρ} :
    LastTurns E (task.wake ::ₘ others) site last → LastTurns E (task ::ₘ others) site last
  -- The caller ends the work once more.
  | cancel {tasks : Multiset Task} {site last : Site ρ} :
    LastTurns E tasks { site with world := E.cancel site.world } last →
    LastTurns E tasks site last
  -- The flag is lowered for the next pass.
  | lower {tasks : Multiset Task} {site last : Site ρ} :
    LastTurns E tasks { site with recreated := false } last → LastTurns E tasks site last

/-- What a move may do, given the tasks before it and those in flight after it: a turn of one of the
    tasks, or the end of the work, or nothing. A task is out after its turn if the work is ended by
    then. Then the flag may be lowered for the next pass. -/
def OneTurn (E : Engine ρ) (tasks : Multiset (Slot Task)) (left : Multiset Task)
    (site after : Site ρ) : Prop :=
  ∃ next : Site ρ, (next = site ∨ next = { site with world := E.cancel site.world } ∨
      ∃ slot others, tasks = slot ::ₘ others ∧ next = slot.task.act E site ∧
        (E.cancelled next.world = true → left = going others)) ∧
    (after = next ∨ after = { next with recreated := false })

section Task

variable {E : Engine ρ} {site last : Site ρ}

theorem going_cons (slot : Slot σ) (slots : Multiset (Slot σ)) :
    going (slot ::ₘ slots) = if slot.started then slot.task ::ₘ going slots else going slots := by
  rw [going, Multiset.filter_cons]
  cases slot.started with
  | false => rw [if_neg Bool.false_ne_true, if_neg Bool.false_ne_true, zero_add]; rfl
  | true => rw [if_pos rfl, if_pos rfl, Multiset.singleton_add, Multiset.map_cons]; rfl

theorem going_add (slots slots' : Multiset (Slot σ)) :
    going (slots + slots') = going slots + going slots' := by
  rw [going, Multiset.filter_add, Multiset.map_add]
  rfl

theorem going_map {τ : Type} (f : σ → τ) (slots : Multiset (Slot σ)) :
    going (slots.map (Slot.map f)) = (going slots).map f := by
  rw [going, Multiset.filter_map, Multiset.map_map, going, Multiset.map_map]
  rfl

/-- Nothing is in flight if no task has begun. -/
theorem going_eq_zero {slots : Multiset (Slot σ)} (h : ∀ slot ∈ slots, slot.started = false) :
    going slots = 0 := by
  rw [going, Multiset.map_eq_zero, Multiset.filter_eq_nil]
  exact fun slot hslot => Bool.eq_false_iff.mp (h slot hslot)

/-- If nothing is in flight, nothing is asked for and nothing is said. -/
theorem LastTurns.idle {E : Engine ρ} {site last : Site (Recording ρ)}
    (h : LastTurns E.recorded 0 site last) :
    last.world.calls = site.world.calls ∧ last.channel = site.channel := by
  generalize htasks : (0 : Multiset Task) = tasks at h
  induction h with
  | still => exact ⟨rfl, rfl⟩
  | turn => exact absurd htasks (Multiset.zero_ne_cons)
  | wake => exact absurd htasks (Multiset.zero_ne_cons)
  | cancel _ ih => exact ih htasks
  | lower _ ih => exact ih htasks

/-- What several tasks wait for happens. -/
theorem LastTurns.wake_all {tasks : Multiset Task} (woken : Multiset Task)
    (h : LastTurns E (tasks + woken.map Task.wake) site last) :
    LastTurns E (tasks + woken) site last := by
  induction woken using Multiset.induction generalizing tasks with
  | empty => exact h
  | cons task woken ih =>
      rw [Multiset.map_cons, Multiset.add_cons, ← Multiset.cons_add] at h
      rw [Multiset.add_cons]
      refine .wake ?_
      rw [← Multiset.cons_add]
      exact ih h

end Task

/-! ### Groups -/

/-- The tasks of a group are tasks of a pass, the world of the group being a part of the site. -/
structure Conduct.Serves (C : Conduct σ W) (E : Engine ρ) (f : σ → Task) (site : W → Site ρ) :
    Prop where
  cancelled : ∀ w, C.cancelled w = E.cancelled (site w).world
  cancel : ∀ w, site (C.cancel w) = { site w with world := E.cancel (site w).world }
  resume : ∀ task tripped w, site (C.resume task ⟨tripped, w⟩).2.world = (f task).act E (site w)
  wake : ∀ task, f (C.wake task) = (f task).wake

namespace Group

variable {C : Conduct σ W} {E : Engine ρ} {f : σ → Task} {site : W → Site ρ} {g : Group σ} {w : W}
  {last : Site ρ}

/-- A turn after the end of the work: nothing happens if the task has not begun, and if it has, it
    is its last turn. -/
theorem poll_of_cancelled (h : C.Lasting) (hcancelled : C.cancelled w = true) (place : Nat) :
    (going (g.poll C place w).1.slots = going g.slots ∧ (g.poll C place w).2 = w) ∨
      ∃ task others, going g.slots = task ::ₘ others ∧ going (g.poll C place w).1.slots = others ∧
        (g.poll C place w).2 = (C.resume task ⟨g.tripped, w⟩).2.world := by
  cases hslot : g.ready[place]? with
  | none =>
      rw [poll_of_getElem?_none hslot]
      exact Or.inl ⟨rfl, rfl⟩
  | some slot =>
      have hstopped : C.stopped ⟨g.tripped, w⟩ = true := Bool.or_eq_true_iff.mpr (Or.inr hcancelled)
      rcases poll_of_getElem? hslot C w with ⟨rest, hslots, hslots', _, _, hworld⟩
      rcases h.turn_ends slot.started slot.task hstopped with ⟨⟨result, hresult⟩, _⟩
      rw [hresult, Turn.slots, zero_add] at hslots'
      rw [hslots, hslots', hworld, going_cons]
      cases hstarted : slot.started with
      | false =>
          refine Or.inl ⟨rfl, ?_⟩
          rw [guarded, hstopped]
          rfl
      | true =>
          refine Or.inr ⟨slot.task, going rest, rfl, rfl, ?_⟩
          rw [guarded, Bool.not_true, Bool.false_and, if_neg Bool.false_ne_true]
          rcases C.resume slot.task ⟨g.tripped, w⟩ with ⟨turn, after⟩
          cases turn with
          | finished result => rfl
          | _ =>
              simp only
              split <;> rfl

/-- Whatever may happen after a move of a group, once the work has been ended, is what may happen
    before it. -/
theorem lastTurns_step (h : C.Lasting) (hserves : C.Serves E f site)
    (hcancelled : C.cancelled w = true) (move : Move)
    (hlast : LastTurns E ((going (g.step C move w).1.slots).map f) (site (g.step C move w).2)
      last) :
    LastTurns E ((going g.slots).map f) (site w) last := by
  cases move with
  | poll place =>
      simp only [step] at hlast
      rcases poll_of_cancelled h hcancelled place (g := g) with
        ⟨hgoing, hworld⟩ | ⟨task, others, hgoing, hgoing', hworld⟩
      · rw [hgoing, hworld] at hlast
        exact hlast
      · rw [hgoing', hworld, hserves.resume] at hlast
        rw [hgoing, Multiset.map_cons]
        exact .turn hlast
  | fire =>
      have hwoken : ∀ slots : Multiset (Slot σ), (going (slots.map fun slot : Slot σ =>
          { slot with task := C.wake slot.task })).map f = ((going slots).map f).map Task.wake := by
        intro slots
        rw [show (fun slot : Slot σ => { slot with task := C.wake slot.task }) = Slot.map C.wake
          from rfl, going_map, Multiset.map_map, Multiset.map_map]
        exact Multiset.map_congr rfl fun task _ => hserves.wake task
      simp only [step] at hlast
      rw [slots_rouse, going_add, Multiset.map_add, hwoken] at hlast
      rw [slots, ← Multiset.coe_add, going_add, Multiset.map_add]
      exact hlast.wake_all
  | cancel =>
      simp only [step] at hlast
      rw [slots_heed, hserves.cancel] at hlast
      exact .cancel hlast

/-- A guarded task comes to an end in a turn by whose end the work is ended. -/
theorem guarded_of_ended {α : Type} {cancelled : W → Bool}
    {resume : σ → W → Turn σ (Except Error α) × W} {started : Bool} {task : σ} {w : W}
    (h : cancelled (guarded cancelled resume started task w).2 = true) :
    ∃ result, (guarded cancelled resume started task w).1 = .finished result := by
  unfold guarded at h ⊢
  by_cases hbegun : (!started && cancelled w) = true
  · rw [if_pos hbegun]
    exact ⟨_, rfl⟩
  rw [if_neg hbegun] at h ⊢
  generalize resume task w = next at h ⊢
  rcases next with ⟨turn, after⟩
  cases turn with
  | finished result => exact ⟨result, rfl⟩
  | _ =>
      by_cases hstop : cancelled after = true
      · exact ⟨_, congrArg Prod.fst (if_pos hstop)⟩
      · simp only [if_neg hstop] at h
        exact absurd h hstop

/-- A move of a group is a turn of one task at the most. -/
theorem oneTurn_step (hserves : C.Serves E f site) (move : Move) (g : Group σ) (w : W) :
    OneTurn E (g.slots.map (Slot.map f)) ((going (g.step C move w).1.slots).map f) (site w)
      (site (g.step C move w).2) := by
  cases move with
  | fire => exact ⟨site w, Or.inl rfl, Or.inl rfl⟩
  | cancel => exact ⟨_, Or.inr (Or.inl rfl), Or.inl (hserves.cancel w)⟩
  | poll place =>
      simp only [step]
      cases hslot : g.ready[place]? with
      | none =>
          rw [poll_of_getElem?_none hslot]
          exact ⟨site w, Or.inl rfl, Or.inl rfl⟩
      | some slot =>
          rcases poll_of_getElem? hslot C w with ⟨rest, hslots, hslots', _, _, hworld⟩
          have htasks : g.slots.map (Slot.map f) = slot.map f ::ₘ rest.map (Slot.map f) := by
            rw [hslots, Multiset.map_cons]
          have hact := hserves.resume slot.task g.tripped w
          have hout : E.cancelled (site (g.poll C place w).2).world = true →
              (going (g.poll C place w).1.slots).map f = going (rest.map (Slot.map f)) := by
            intro hended
            rw [← hserves.cancelled, hworld] at hended
            have hstopped : C.stopped (guarded C.stopped C.resume slot.started slot.task
                ⟨g.tripped, w⟩).2 = true := Bool.or_eq_true_iff.mpr (Or.inr hended)
            rcases guarded_of_ended hstopped with ⟨result, hresult⟩
            rw [hslots', hresult, Turn.slots, zero_add, going_map]
          rcases guarded_cases C.stopped C.resume slot.started slot.task ⟨g.tripped, w⟩ with
            heq | ⟨heq, _⟩ | ⟨heq, _⟩
          · rw [← heq, ← hworld] at hact
            exact ⟨_, Or.inr (Or.inr ⟨_, _, htasks, hact, hout⟩), Or.inl rfl⟩
          · rw [hworld, heq]
            exact ⟨site w, Or.inl rfl, Or.inl rfl⟩
          · rw [hworld, heq] at hout ⊢
            exact ⟨_, Or.inr (Or.inr ⟨_, _, htasks, hact, hout⟩), Or.inl rfl⟩

end Group

/-! ### Passes -/

section Pass

variable {E : Engine ρ} {site last : Site ρ}

theorem Gate.conduct_serves (E : Engine ρ) (project : String) (site : Site ρ) :
    (conduct E project).Serves E (.gate project) fun w => { site with world := w } where
  cancelled _ := rfl
  cancel _ := rfl
  wake _ := rfl
  resume watch tripped w :=
    congrArg (fun scope => { site with world := scope.world })
      (watch_scope E project watch ⟨tripped, w⟩)

theorem Job.conduct_serves (E : Engine ρ) : (conduct E).Serves E .operation id where
  cancelled _ := rfl
  cancel _ := rfl
  wake _ := rfl
  resume _ _ _ := rfl

namespace Pass

variable {name : String} {filter : LabelFilter}

theorem going_afterGates (name : String) (filter : LabelFilter) (gates : Group Gate.Watch) :
    going ((afterGates gates).slots name filter) = (going gates.slots).map (.gate name) := by
  cases hover : gates.isOver with
  | false =>
      rw [afterGates_of_going hover, Stage.slots, going_map]
  | true =>
      rw [afterGates, if_pos hover, (Group.slots_eq_zero_iff gates).mpr hover]
      cases gates.outcome <;> rfl

theorem going_afterJobs (name : String) (filter : LabelFilter) (jobs : Group Job) :
    going ((afterJobs jobs).slots name filter) = (going jobs.slots).map .operation := by
  cases hover : jobs.isOver with
  | false =>
      rw [afterJobs_of_going hover, Stage.slots, going_map]
  | true =>
      rw [afterJobs_of_over hover, (Group.slots_eq_zero_iff jobs).mpr hover]
      rfl

theorem going_ofTasks (tasks : List σ) : going (Group.ofTasks tasks).slots = 0 := by
  refine going_eq_zero fun slot hslot => ?_
  rw [Group.slots_ofTasks] at hslot
  rcases Multiset.mem_map.mp hslot with ⟨task, _, rfl⟩
  rfl

/-- A pass at its beginning has nothing in flight. -/
theorem going_start (project : Project) (service : Service) (grace : Option Nat) (marks : Marks) :
    going (start project service grace marks).slots = 0 := by
  rw [slots, start, going_afterGates, going_ofTasks, Multiset.map_zero]

/-- Nor has a pass that has heard of its containers, or come to its end. -/
theorem going_heard (name : String) (filter : LabelFilter) (pass : Pass)
    (result : Except Error (Except RuntimeError (List Summary))) :
    going ((pass.heard (.finished result)).slots name filter) = 0 := by
  rcases result with error | cause | containers
  · rfl
  · rfl
  · simp only [heard, afterListing]
    cases pass.operations containers with
    | error cause => rfl
    | ok operations => rw [going_afterJobs, going_ofTasks, Multiset.map_zero]

theorem slots_of_result {pass : Pass} {result : Except Error Unit}
    (h : pass.result? = some result) : pass.slots = 0 := by
  unfold result? at h
  rw [slots]
  cases hstage : pass.stage with
  | ended _ => rfl
  | _ =>
      rw [hstage] at h
      cases h

/-- A turn of the listing after the end of the work. -/
theorem takeListing_of_cancelled (h : E.Lasting) (pass : Pass) (started : Bool)
    (errand : Errand (List Summary)) {w : ρ} (hcancelled : E.cancelled w = true) :
    ∃ result, pass.takeListing E started errand w = (pass.heard (.finished result),
      if started then (Errand.resume E (.list pass.filter) errand w).2 else w) := by
  rw [takeListing_eq, guarded]
  cases started with
  | false =>
      rw [Bool.not_false, Bool.true_and, if_pos hcancelled]
      exact ⟨_, rfl⟩
  | true =>
      rw [Bool.not_true, Bool.false_and, if_neg Bool.false_ne_true, if_pos rfl]
      have hafter := Errand.resume_kept h.kept (.list pass.filter) errand hcancelled
      simp only [listingTurn]
      rcases hresume : Errand.resume E (.list pass.filter) errand w with ⟨turn, after⟩
      rw [hresume] at hafter
      cases turn with
      | finished answer => exact ⟨_, rfl⟩
      | _ =>
          simp only [Turn.map, if_pos hafter]
          exact ⟨_, rfl⟩

/-- Whatever may happen after a move of a pass, once the work has been ended, is what may happen
    before it. -/
theorem lastTurns_step (h : E.Lasting) {pass : Pass} (hcancelled : E.cancelled site.world = true)
    (move : Move)
    (hlast : LastTurns E (going (pass.step E move site).1.slots) (pass.step E move site).2 last) :
    LastTurns E (going pass.slots) site last := by
  rcases pass with ⟨project, service, grace, marks, stage⟩
  let filter := Labels.serviceFilter project.name service.name
  cases stage with
  | gating gates =>
      simp only [step, slots, going_afterGates] at hlast
      rw [slots, Stage.slots, going_map]
      exact Group.lastTurns_step (Gate.conduct_lasting h project.name)
        (Gate.conduct_serves E project.name site) hcancelled move hlast
  | working jobs =>
      simp only [step, slots, going_afterJobs] at hlast
      rw [slots, Stage.slots, going_map]
      exact Group.lastTurns_step (Job.conduct_lasting h) (Job.conduct_serves E) hcancelled move
        hlast
  | listing started waiting errand =>
      cases move with
      | cancel => exact .cancel hlast
      | fire =>
          cases started with
          | false => exact hlast
          | true =>
              have hwoken : LastTurns E (Task.wake (.listing filter errand) ::ₘ 0) site last :=
                hlast
              exact .wake hwoken
      | poll place =>
          rcases takeListing_of_cancelled h
            ⟨project, service, grace, marks, .listing started waiting errand⟩ started errand
            hcancelled with ⟨result, hlisting⟩
          simp only [step, hlisting, slots, going_heard] at hlast
          cases started with
          | false => exact hlast
          | true =>
              have hturn : LastTurns E 0 (Task.act E site (.listing filter errand)) last := hlast
              exact .turn hturn
  | ended result =>
      cases move with
      | cancel => exact .cancel hlast
      | _ => exact hlast

/-- A move of a pass is a turn of one task at the most. -/
theorem oneTurn_step (E : Engine ρ) (move : Move) (pass : Pass) (site : Site ρ) :
    OneTurn E pass.slots (going (pass.step E move site).1.slots) site
      (pass.step E move site).2 := by
  rcases pass with ⟨project, service, grace, marks, stage⟩
  cases stage with
  | gating gates =>
      simp only [step, slots, going_afterGates]
      exact Group.oneTurn_step (Gate.conduct_serves E project.name site) move gates site.world
  | working jobs =>
      simp only [step, slots, going_afterJobs]
      exact Group.oneTurn_step (Job.conduct_serves E) move jobs site
  | listing started waiting errand =>
      cases move with
      | fire => exact ⟨site, Or.inl rfl, Or.inl rfl⟩
      | cancel => exact ⟨_, Or.inr (Or.inl rfl), Or.inl rfl⟩
      | poll place =>
          let pass : Pass := ⟨project, service, grace, marks, .listing started waiting errand⟩
          let next := guarded E.cancelled (listingTurn E pass) started errand site.world
          have hout : E.cancelled next.2 = true →
              going ((pass.heard next.1).slots project.name pass.filter) = 0 := by
            intro hended
            rcases Group.guarded_of_ended hended with ⟨result, hresult⟩
            rw [hresult]
            exact going_heard _ _ pass result
          have hturn : next.2 = site.world ∨
              next.2 = (Errand.resume E (.list pass.filter) errand site.world).2 := by
            rcases Group.guarded_cases E.cancelled (listingTurn E pass) started errand site.world
              with heq | ⟨heq, _⟩ | ⟨heq, _⟩
            · exact Or.inr (congrArg Prod.snd heq)
            · exact Or.inl (congrArg Prod.snd heq)
            · exact Or.inr (congrArg Prod.snd heq)
          simp only [step]
          rw [takeListing_eq]
          refine ⟨{ site with world := next.2 }, ?_, Or.inl rfl⟩
          rcases hturn with hidle | hturn
          · exact Or.inl (congrArg (fun w => { site with world := w }) hidle)
          · exact Or.inr (Or.inr ⟨_, 0, rfl,
              congrArg (fun w => { site with world := w }) hturn, hout⟩)
  | ended result =>
      cases move with
      | cancel => exact ⟨_, Or.inr (Or.inl rfl), Or.inl rfl⟩
      | _ => exact ⟨site, Or.inl rfl, Or.inl rfl⟩

end Pass

end Pass

/-! ### Rollouts -/

namespace Rollout

variable {E : Engine ρ} {site last : Site ρ}

theorem going_proceed (project : Project) (grace : Option Nat) (marks : Marks)
    (services : List Service) : going (proceed project grace marks services).slots = 0 := by
  cases services with
  | nil => rfl
  | cons service rest => exact Pass.going_start project service grace marks

/-- A rollout at its beginning has nothing in flight. -/
theorem inFlight_start (project : Project) (grace : Option Nat) :
    (start project grace).inFlight = 0 := by
  rw [inFlight, start]
  cases project.inDependencyOrder with
  | error cause => rfl
  | ok order => exact going_proceed project grace .none order

/-- What comes after a pass has nothing in flight but what the pass has. -/
theorem inFlight_afterPass (pass : Pass) (rest : List Service) (site : Site ρ) :
    (afterPass pass rest site).1.inFlight = going pass.slots := by
  unfold afterPass
  cases hresult : pass.result? with
  | none => rfl
  | some result =>
      rw [Pass.slots_of_result hresult]
      cases result with
      | error error => rfl
      | ok => exact going_proceed _ _ _ rest

/-- All that happens between passes is that the flag is lowered. -/
theorem afterPass_site (pass : Pass) (rest : List Service) (site : Site ρ) :
    (afterPass pass rest site).2 = site ∨
      (afterPass pass rest site).2 = { site with recreated := false } := by
  unfold afterPass
  rcases pass.result? with _ | _ | _
  · exact Or.inl rfl
  · exact Or.inl rfl
  · exact Or.inr rfl

theorem lastTurns_afterPass {pass : Pass} {rest : List Service}
    (hlast : LastTurns E (afterPass pass rest site).1.inFlight (afterPass pass rest site).2 last) :
    LastTurns E (going pass.slots) site last := by
  rw [inFlight_afterPass] at hlast
  rcases afterPass_site pass rest site with heq | heq
  · rw [heq] at hlast
    exact hlast
  · rw [heq] at hlast
    exact .lower hlast

/-- The work stays ended. -/
theorem cancelled_step (h : E.Lasting) (move : Move) (rollout : Rollout)
    (hcancelled : E.cancelled site.world = true) :
    E.cancelled (rollout.step E move site).2.world = true := by
  cases rollout with
  | passing pass rest =>
      simp only [step]
      rw [afterPass_world]
      exact Pass.step_kept h.kept move (fun _ w _ => h.cancel w) hcancelled
  | ended result =>
      cases move with
      | cancel => exact h.cancel site.world
      | _ => exact hcancelled

/-- What happens to a rollout after the end of the work, whatever the moves. -/
theorem lastTurns_play (h : E.Lasting) (moves : List Move) {rollout : Rollout}
    (hcancelled : E.cancelled site.world = true) :
    LastTurns E rollout.inFlight site (play E moves rollout site).2 := by
  induction moves generalizing rollout site with
  | nil => exact .still _ _
  | cons move moves ih =>
      have hnext := cancelled_step h move rollout hcancelled
      cases rollout with
      | passing pass rest =>
          exact Pass.lastTurns_step h hcancelled move (lastTurns_afterPass (ih hnext))
      | ended result =>
          cases move with
          | cancel => exact .cancel (ih hnext)
          | _ => exact ih hnext

/-- A move of a rollout is a turn of one task at the most. -/
theorem oneTurn_step (E : Engine ρ) (move : Move) (rollout : Rollout) (site : Site ρ) :
    let next := rollout.step E move site
    OneTurn E rollout.slots next.1.inFlight site next.2 := by
  cases rollout with
  | passing pass rest =>
      rcases Pass.oneTurn_step E move pass site with ⟨next, hnext, hafter⟩
      simp only [step]
      rw [inFlight_afterPass]
      refine ⟨next, hnext, ?_⟩
      rcases afterPass_site (pass.step E move site).1 rest (pass.step E move site).2 with
        heq | heq
      · rw [heq]
        exact hafter
      · rw [heq]
        rcases hafter with hafter | hafter
        · exact Or.inr (congrArg (fun site : Site ρ => { site with recreated := false }) hafter)
        · exact Or.inr (congrArg (fun site : Site ρ => { site with recreated := false }) hafter)
  | ended result =>
      cases move with
      | cancel => exact ⟨_, Or.inr (Or.inl rfl), Or.inl rfl⟩
      | _ => exact ⟨site, Or.inl rfl, Or.inl rfl⟩

end Rollout

end Fleet
