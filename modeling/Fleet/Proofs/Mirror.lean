import Fleet.Pass
import Fleet.Proofs.Pass
import Fleet.Proofs.Recording

/-!
# What makes no difference to a run

Some of what is kept beside a run has no part in it: the name of a task, or what has been
recorded before it began. A map that forgets or adds such a thing carries a run over into
another one with the same moves and the same results. For a group this is so if the map
respects what single tasks do (`Conduct.Mirrors`), for a whole pass if it respects what an
engine does (`Engine.Mirrors`), since everything else is built from requests.

The recording of a pass in the middle of a rollout begins with the calls of the passes
before it, and what is known of the calls of a pass is known of a recording that begins
with the pass. `Engine.recorded_mirrors` says that the two are the same but for what was
there before.

## Main definitions

* `Conduct.Mirrors`: Tasks of one kind do what those of another do.
* `Engine.Mirrors`: One engine does what another does.
* `Recording.behind`: A recording that has gone on from an earlier one.

## Theorems

* `guarded_map`: Guards are carried over.
* `Group.play_map`: Runs of groups are carried over.
* `Gate.conduct_mirrors`, `Job.conduct_mirrors`: Gates and operations do the same on both engines.
* `Pass.play_map`: Passes are carried over.
* `Engine.recorded_mirrors`: What was recorded before makes no difference.
-/

namespace Fleet

variable {σ τ W V ρ ρ' α : Type}

/-! ### Groups -/

theorem Turn.map_id (turn : Turn σ α) : turn.map id id = turn := by cases turn <;> rfl

/-- A scope with its world changed. -/
def Scope.map (h : W → V) (scope : Scope W) : Scope V := ⟨scope.tripped, h scope.world⟩

/-- A task of a group, changed. -/
def Slot.map (f : σ → τ) (slot : Slot σ) : Slot τ := ⟨f slot.task, slot.started⟩

/-- A group with its tasks changed. -/
def Group.map (f : σ → τ) (g : Group σ) : Group τ :=
  ⟨g.ready.map (Slot.map f), g.asleep.map (Slot.map f), g.tripped, g.failure⟩

/-- Guards are carried over. -/
theorem guarded_map {f : σ → τ} {h : W → V} {cancelled : W → Bool} {cancelled' : V → Bool}
    {resume : σ → W → Turn σ (Except Error α) × W} {resume' : τ → V → Turn τ (Except Error α) × V}
    (hcancelled : ∀ w, cancelled' (h w) = cancelled w)
    (hresume : ∀ task w, resume' (f task) (h w) =
      ((resume task w).1.map f id, h (resume task w).2)) (started : Bool) (task : σ) (w : W) :
    guarded cancelled' resume' started (f task) (h w) =
      ((guarded cancelled resume started task w).1.map f id,
        h (guarded cancelled resume started task w).2) := by
  rw [guarded, guarded, hcancelled]
  split
  · rfl
  · rw [hresume]
    rcases resume task w with ⟨turn, after⟩
    cases turn with
    | finished result => rfl
    | _ =>
        simp only [Turn.map, hcancelled]
        split <;> rfl

/-- Tasks of one kind, in one world, do what tasks of another kind do in another, the maps saying
    what corresponds to what. -/
structure Conduct.Mirrors (C : Conduct σ W) (C' : Conduct τ V) (f : σ → τ) (h : W → V) :
    Prop where
  cancelled : ∀ w, C'.cancelled (h w) = C.cancelled w
  cancel : ∀ w, C'.cancel (h w) = h (C.cancel w)
  resume : ∀ task scope, C'.resume (f task) (scope.map h) =
    ((C.resume task scope).1.map f id, (C.resume task scope).2.map h)
  wake : ∀ task, C'.wake (f task) = f (C.wake task)

theorem Conduct.Mirrors.stopped {C : Conduct σ W} {C' : Conduct τ V} {f : σ → τ} {h : W → V}
    (hmirror : C.Mirrors C' f h) (scope : Scope W) :
    C'.stopped (scope.map h) = C.stopped scope := by
  simp only [Conduct.stopped, Scope.map, hmirror.cancelled]

namespace Group

theorem map_id (g : Group σ) : g.map id = g := by
  have hslot : (Slot.map id : Slot σ → Slot σ) = id := rfl
  rw [map, hslot, List.map_id, List.map_id]

theorem map_settle (f : σ → τ) (g : Group σ) (turn : Turn σ (Except Error Unit)) :
    (g.settle turn).map f = (g.map f).settle (turn.map f id) := by
  rcases turn with task | task | error | _
  · simp only [Turn.map, settle, map, List.map_append]
    rfl
  · simp only [Turn.map, settle, map, List.map_append]
    rfl
  · rfl
  · rfl

theorem map_rouse {f : σ → τ} {change : σ → σ} {change' : τ → τ}
    (hchange : ∀ task, change' (f task) = f (change task)) (g : Group σ) :
    (g.rouse change).map f = (g.map f).rouse change' := by
  simp only [rouse, map, List.map_append, List.map_map, List.map_nil, Group.mk.injEq, and_true,
    List.append_cancel_left_eq]
  refine List.map_congr_left fun slot _ => ?_
  simp only [Function.comp_apply, Slot.map, hchange]

variable {C : Conduct σ W} {C' : Conduct τ V} {f : σ → τ} {h : W → V}

theorem map_heed (hmirror : C.Mirrors C' f h) (g : Group σ) (w : W) :
    (g.heed C w).map f = (g.map f).heed C' (h w) := by
  have hstopped : C'.stopped ⟨(g.map f).tripped, h w⟩ = C.stopped ⟨g.tripped, w⟩ :=
    hmirror.stopped ⟨g.tripped, w⟩
  rw [heed, heed, hstopped]
  split
  · have hsame : ∀ task, (id (f task) : τ) = f (id task) := fun _ => rfl
    exact map_rouse hsame g
  · rfl

/-- Moves of groups are carried over. -/
theorem step_map (hmirror : C.Mirrors C' f h) (move : Move) (g : Group σ) (w : W) :
    (g.map f).step C' move (h w) = ((g.step C move w).1.map f, h (g.step C move w).2) := by
  cases move with
  | fire => exact congrArg (·, h w) (map_rouse hmirror.wake g).symm
  | cancel =>
      simp only [step, hmirror.cancel]
      rw [map_heed hmirror]
  | poll place =>
      have hready : (g.map f).ready[place]? = g.ready[place]?.map (Slot.map f) :=
        List.getElem?_map
      simp only [step, poll, hready]
      cases g.ready[place]? with
      | none => rfl
      | some slot =>
          have hturn := guarded_map hmirror.stopped hmirror.resume slot.started slot.task
            ⟨g.tripped, w⟩
          simp only [Scope.map] at hturn
          simp only [Option.map_some, Slot.map]
          rw [show (g.map f).tripped = g.tripped from rfl, hturn]
          simp only [Prod.mk.injEq, and_true]
          rw [map_heed hmirror, map_settle]
          simp only [map, List.eraseIdx_map]

/-- A group after a list of moves, with the world. -/
def play (C : Conduct σ W) (moves : List Move) (g : Group σ) (w : W) : Group σ × W :=
  moves.foldl (fun s move => s.1.step C move s.2) (g, w)

theorem play_append (C : Conduct σ W) (first rest : List Move) (g : Group σ) (w : W) :
    play C (first ++ rest) g w = play C rest (play C first g w).1 (play C first g w).2 :=
  List.foldl_append

/-- Runs of groups are carried over. -/
theorem play_map (hmirror : C.Mirrors C' f h) (moves : List Move) (g : Group σ) (w : W) :
    play C' moves (g.map f) (h w) = ((play C moves g w).1.map f, h (play C moves g w).2) := by
  induction moves generalizing g w with
  | nil => rfl
  | cons move moves ih =>
      have hrest := ih (g.step C move w).1 (g.step C move w).2
      rw [play, List.foldl_cons, step_map hmirror]
      exact hrest

end Group

/-! ### Engines -/

/-- One engine does what another does, the map saying which state corresponds to which. -/
structure Engine.Mirrors (E : Engine ρ) (E' : Engine ρ') (h : ρ → ρ') : Prop where
  call : ∀ q w, E'.call q (h w) = ((E.call q w).1, h (E.call q w).2)
  pauses : ∀ w, E'.pauses (h w) = E.pauses w
  slow : ∀ w after, E'.slow (h w) (h after) = E.slow w after
  cancelled : ∀ w, E'.cancelled (h w) = E.cancelled w
  cancel : ∀ w, E'.cancel (h w) = h (E.cancel w)

section Engine

variable {E : Engine ρ} {E' : Engine ρ'} {h : ρ → ρ'}

namespace Errand

theorem issue_map (hmirror : E.Mirrors E' h) (q : Request) (w : ρ) :
    issue E' q (h w) = ((issue E q w).1, h (issue E q w).2) := by
  rw [issue, issue, hmirror.call]
  rcases E.call q w with ⟨answer, after⟩
  simp only [hmirror.slow]
  split <;> rfl

theorem resume_map (hmirror : E.Mirrors E' h) (q : Request) (errand : Errand q.Answer) (w : ρ) :
    resume E' q errand (h w) = ((resume E q errand w).1, h (resume E q errand w).2) := by
  have hpause : ∀ turns, pauseOrIssue E' q turns (h w) =
      ((pauseOrIssue E q turns w).1, h (pauseOrIssue E q turns w).2) := by
    intro turns
    cases turns with
    | zero => exact issue_map hmirror q w
    | succ turns => rfl
  rcases errand with _ | turns | ⟨answer, _ | _⟩
  · simp only [resume, hmirror.pauses]
    exact hpause (E.pauses w)
  · exact hpause turns
  · rfl
  · rfl

end Errand

namespace Poll

theorem inspectAll_map (hmirror : E.Mirrors E' h) (dependency id : String)
    (errand : Errand Details) (rest : List String) (w : ρ) :
    inspectAll E' dependency id errand rest (h w) =
      ((inspectAll E dependency id errand rest w).1,
        h (inspectAll E dependency id errand rest w).2) := by
  induction rest generalizing id errand w with
  | nil =>
      rw [inspectAll, inspectAll, Errand.resume_map hmirror (.inspect id)]
      rcases Errand.resume E (.inspect id) errand w with ⟨turn, after⟩
      rcases turn with _ | _ | _ | details
      · rfl
      · rfl
      · rfl
      · simp only
        rcases verdict dependency details.health with _ | _ | _ <;> rfl
  | cons next rest ih =>
      rw [inspectAll, inspectAll, Errand.resume_map hmirror (.inspect id)]
      rcases Errand.resume E (.inspect id) errand w with ⟨turn, after⟩
      rcases turn with _ | _ | _ | details
      · rfl
      · rfl
      · rfl
      · simp only
        rcases verdict dependency details.health with _ | _ | _
        · rfl
        · rfl
        · exact ih next .due after

theorem resume_map (hmirror : E.Mirrors E' h) (project dependency : String) (poll : Poll) (w : ρ) :
    resume E' project dependency poll (h w) =
      ((resume E project dependency poll w).1, h (resume E project dependency poll w).2) := by
  cases poll with
  | inspecting id errand rest => exact inspectAll_map hmirror dependency id errand rest w
  | listing errand =>
      simp only [resume]
      rw [Errand.resume_map hmirror (.list (Labels.serviceFilter project dependency))]
      rcases Errand.resume E (.list (Labels.serviceFilter project dependency)) errand w with
        ⟨turn, after⟩
      rcases turn with _ | _ | _ | containers
      · rfl
      · rfl
      · rfl
      · simp only
        cases containers.map (·.id) with
        | nil => rfl
        | cons id rest => exact inspectAll_map hmirror dependency id .due rest after

end Poll

namespace Gate

theorem pollOn_map (hmirror : E.Mirrors E' h) (project dependency : String) (poll : Poll)
    (scope : Scope ρ) : pollOn E' project dependency poll (scope.map h) =
      ((pollOn E project dependency poll scope).1,
        (pollOn E project dependency poll scope).2.map h) := by
  rw [pollOn, pollOn, Scope.map, Poll.resume_map hmirror]
  rcases Poll.resume E project dependency poll scope.world with ⟨turn, after⟩
  rcases turn with _ | _ | _ | _ | _
  · rfl
  · rfl
  · rfl
  · simp only [hmirror.cancelled]
    split <;> rfl
  · rfl

/-- Gates do the same on both engines. -/
theorem conduct_mirrors (hmirror : E.Mirrors E' h) (project : String) :
    (conduct E project).Mirrors (conduct E' project) id h where
  cancelled := hmirror.cancelled
  cancel := hmirror.cancel
  wake _ := rfl
  resume := by
    rintro ⟨dependency, gate⟩ scope
    have hresume : Gate.resume E' project dependency gate (scope.map h) =
        ((Gate.resume E project dependency gate scope).1,
          (Gate.resume E project dependency gate scope).2.map h) := by
      rcases gate with poll | _ | _
      · exact pollOn_map hmirror project dependency poll scope
      · simp only [Gate.resume, Scope.map, hmirror.cancelled]
        split <;> rfl
      · exact pollOn_map hmirror project dependency .fresh scope
    simp only [conduct, Watch.resume, id_eq, hresume, Turn.map_id]

end Gate

namespace Stand

theorem takeSteps_map (hmirror : E.Mirrors E' h) (steps : List Step) (created : String) (w : ρ) :
    takeSteps E' created steps (h w) =
      ((takeSteps E created steps w).1, h (takeSteps E created steps w).2) := by
  induction steps generalizing created w with
  | nil => rfl
  | cons step rest ih =>
      rw [takeSteps, takeSteps, Errand.resume_map hmirror]
      rcases Errand.resume E (step.request created) .due w with ⟨turn, after⟩
      rcases turn with _ | _ | _ | answer
      · rfl
      · rfl
      · rfl
      · exact ih _ after

theorem takeOn_map (hmirror : E.Mirrors E' h) (created : String) (q : Request)
    (errand : Errand q.Answer) (rest : List Step) (w : ρ) :
    takeOn E' created q errand rest (h w) =
      ((takeOn E created q errand rest w).1, h (takeOn E created q errand rest w).2) := by
  rw [takeOn, takeOn, Errand.resume_map hmirror]
  rcases Errand.resume E q errand w with ⟨turn, after⟩
  rcases turn with _ | _ | _ | answer
  · rfl
  · rfl
  · rfl
  · exact takeSteps_map hmirror rest _ after

end Stand

/-- The world of operations with that of the engine changed. -/
def Site.map (h : ρ → ρ') (site : Site ρ) : Site ρ' :=
  ⟨h site.world, site.channel, site.recreated⟩

namespace Job

theorem conclude_map (op : Operation) (site : Site ρ)
    (turn : Turn Stand (Except RuntimeError Unit)) (w : ρ) :
    conclude op (site.map h) (turn, h w) =
      ((conclude op site (turn, w)).1, (conclude op site (turn, w)).2.map h) := by
  rcases turn with _ | _ | _ | _
  · rfl
  · rfl
  · rfl
  · simp only [conclude, Site.complete]
    split <;> rfl

theorem resume_map (hmirror : E.Mirrors E' h) (job : Job) (site : Site ρ) :
    job.resume E' (site.map h) = ((job.resume E site).1, (job.resume E site).2.map h) := by
  rcases job with ⟨op, stand⟩
  cases stand with
  | fresh =>
      simp only [resume]
      cases op.steps with
      | error cause => rfl
      | ok steps =>
          let event := op.event .working op.kind.beginning
          simp only
          rw [show (site.map h).report event = (site.report event).map h from rfl,
            show ((site.report event).map h).world = h site.world from rfl,
            Stand.takeSteps_map hmirror]
          exact conclude_map op (site.report event) _ _
  | underway created q errand rest =>
      simp only [resume]
      rw [show (site.map h).world = h site.world from rfl, Stand.takeOn_map hmirror]
      exact conclude_map op site _ _

/-- Operations do the same on both engines. -/
theorem conduct_mirrors (hmirror : E.Mirrors E' h) :
    (conduct E).Mirrors (conduct E') id (Site.map h) where
  cancelled site := hmirror.cancelled site.world
  cancel site := by simp only [conduct, Site.map, hmirror.cancel]
  wake _ := rfl
  resume job scope := by
    simp only [conduct, id_eq, Scope.map, resume_map hmirror, Turn.map_id]

end Job

/-! ### Passes -/

namespace Pass

theorem takeListing_map (hmirror : E.Mirrors E' h) (pass : Pass) (started : Bool)
    (errand : Errand (List Summary)) (w : ρ) :
    pass.takeListing E' started errand (h w) =
      ((pass.takeListing E started errand w).1, h (pass.takeListing E started errand w).2) := by
  have hturn : ∀ errand w, listingTurn E' pass (id errand) (h w) =
      ((listingTurn E pass errand w).1.map id id, h (listingTurn E pass errand w).2) := by
    intro errand w
    rw [Turn.map_id, id_eq, listingTurn, Errand.resume_map hmirror]
    rfl
  have hguarded := guarded_map hmirror.cancelled hturn started errand w
  rw [Turn.map_id, id_eq] at hguarded
  rw [takeListing_eq, takeListing_eq, hguarded]

/-- Moves of passes are carried over. -/
theorem step_map (hmirror : E.Mirrors E' h) (move : Move) (pass : Pass) (site : Site ρ) :
    pass.step E' move (site.map h) =
      ((pass.step E move site).1, (pass.step E move site).2.map h) := by
  rcases pass with ⟨project, service, grace, marks, stage⟩
  cases stage with
  | gating gates =>
      have hstep := Group.step_map (Gate.conduct_mirrors hmirror project.name) move gates
        site.world
      rw [Group.map_id, Group.map_id] at hstep
      simp only [step]
      rw [show (site.map h).world = h site.world from rfl, hstep]
      rfl
  | listing started waiting errand =>
      cases move with
      | poll place =>
          simp only [step]
          rw [show (site.map h).world = h site.world from rfl, takeListing_map hmirror]
          rfl
      | fire => rfl
      | cancel =>
          simp only [step]
          rw [show (site.map h).world = h site.world from rfl, hmirror.cancel]
          rfl
  | working jobs =>
      have hstep := Group.step_map (Job.conduct_mirrors hmirror) move jobs site
      rw [Group.map_id, Group.map_id] at hstep
      simp only [step]
      rw [hstep]
  | ended result =>
      cases move with
      | poll place => rfl
      | fire => rfl
      | cancel =>
          simp only [step]
          rw [show (site.map h).world = h site.world from rfl, hmirror.cancel]
          rfl

/-- Passes are carried over. -/
theorem play_map (hmirror : E.Mirrors E' h) (moves : List Move) (pass : Pass) (site : Site ρ) :
    play E' moves pass (site.map h) =
      ((play E moves pass site).1, (play E moves pass site).2.map h) := by
  induction moves generalizing pass site with
  | nil => rfl
  | cons move moves ih =>
      have hrest := ih (pass.step E move site).1 (pass.step E move site).2
      rw [play, List.foldl_cons, step_map hmirror]
      exact hrest

end Pass

end Engine

/-! ### Recordings -/

/-- A recording that has gone on from an earlier one. -/
def Recording.behind (past : Recording ρ) (r : Recording ρ) : Recording ρ :=
  ⟨r.world, past.calls ++ r.calls, past.interrupted || r.interrupted⟩

/-- What was recorded before makes no difference. -/
theorem Engine.recorded_mirrors (E : Engine ρ) (past : Recording ρ) :
    E.recorded.Mirrors E.recorded past.behind where
  call q r := by
    simp only [recorded, Recording.behind, List.append_assoc, Bool.or_assoc]
  pauses _ := rfl
  slow _ _ := rfl
  cancelled _ := rfl
  cancel r := by
    simp only [recorded, Recording.behind, Bool.or_assoc]

end Fleet
