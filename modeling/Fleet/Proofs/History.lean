import Fleet.Proofs.Polling
import Fleet.Proofs.Rollout
import Fleet.Proofs.Throughout

/-!
# The history of a rollout

What comes before what in a rollout is a question about requests and about the ends of
passes, and neither a recording nor the moments of a run has both. The history has: each
request with the service whose pass made it, and in its place the end of each pass. A
request made while a pass waits for its dependencies belongs to one of its gates, and the
history also says to which.

Nothing has to be added to passes for this. Between two moves a pass is about one service,
and a move of its gates gives the turn to one of them, so the entries are read off a move:
what has been recorded by it, and what the pass has come to.

## Main definitions

* `Entry`: Something that happens in a rollout.
* `callsIn`, `askedBy`: The requests in a history, and those by one gate.
* `Rollout.history`: What has happened after a list of moves.

## Theorems

* `Rollout.history_rule`: What every move keeps holds of the whole history.
* `Rollout.callsIn_history`: The requests in a history are those that were carried out.
-/

namespace Fleet

variable {ρ : Type}

/-- Something that happens in a rollout. -/
inductive Entry
  -- A request is carried out in the pass of a service, by its gate for a dependency or by none.
  | call (service : Service) (gate : Option String) (call : Call)
  -- The pass of a service succeeds.
  | passed (service : Service)
  -- The pass of a service fails.
  | failed (service : Service) (error : Error)

namespace Entry

/-- The end of a pass. -/
def ending (service : Service) : Except Error Unit → Entry
  | .ok () => passed service
  | .error error => failed service error

/-- The request that is carried out, if any. -/
def call? : Entry → Option Call
  | call _ _ c => some c
  | _ => none

/-- The request that the gate of a service for a dependency has carried out, if any. -/
def asked? (service dependency : String) : Entry → Option Call
  | call s gate c => if s.name = service ∧ gate = some dependency then some c else none
  | _ => none

end Entry

/-- The requests in a history. -/
def callsIn (history : List Entry) : List Call := history.filterMap Entry.call?

/-- The requests in a history that the gate of a service for a dependency has made. -/
def askedBy (service dependency : String) (history : List Entry) : List Call :=
  history.filterMap (Entry.asked? service dependency)

namespace Pass

/-- The dependency whose gate has its turn with a move, if one has. -/
def polled (pass : Pass) (move : Move) : Option String :=
  match pass.stage with
  | .gating gates => Gate.polled gates move
  | _ => none

/-- What happens in a pass with a move. -/
def news (E : Engine ρ) (move : Move) (pass : Pass) (site : Site (Recording ρ)) : List Entry :=
  let next := pass.step E.recorded move site
  (next.2.world.calls.drop site.world.calls.length).map (.call pass.service (pass.polled move)) ++
    (next.1.result?.map (.ending pass.service)).toList

end Pass

namespace Rollout

/-- What happens in a rollout with a move. -/
def news (E : Engine ρ) (move : Move) (rollout : Rollout) (site : Site (Recording ρ)) :
    List Entry :=
  match rollout with
  | passing pass _ => pass.news E move site
  | ended _ => []

/-- What happens in a rollout with a list of moves. -/
def history (E : Engine ρ) : List Move → Rollout → Site (Recording ρ) → List Entry
  | [], _, _ => []
  | move :: moves, rollout, site =>
    match rollout.step E.recorded move site with
    | (rollout', site') => rollout.news E move site ++ history E moves rollout' site'

end Rollout

/-! ### Reading a history -/

@[simp] theorem callsIn_append (past news : List Entry) :
    callsIn (past ++ news) = callsIn past ++ callsIn news := List.filterMap_append

@[simp] theorem askedBy_append (service dependency : String) (past news : List Entry) :
    askedBy service dependency (past ++ news) =
      askedBy service dependency past ++ askedBy service dependency news := List.filterMap_append

theorem callsIn_map_call (service : Service) (gate : Option String) (calls : List Call) :
    callsIn (calls.map (.call service gate)) = calls := by
  rw [callsIn, List.filterMap_map]
  exact List.filterMap_some

theorem askedBy_map_call (service : Service) (gate : Option String) (calls : List Call)
    (dependency : String) :
    askedBy service.name dependency (calls.map (.call service gate)) =
      if gate = some dependency then calls else [] := by
  rw [askedBy, List.filterMap_map]
  by_cases hgate : gate = some dependency
  · rw [if_pos hgate]
    have hall : Entry.asked? service.name dependency ∘ Entry.call service gate = some :=
      funext fun c => if_pos ⟨rfl, hgate⟩
    rw [hall]
    exact List.filterMap_some
  · rw [if_neg hgate]
    exact List.filterMap_eq_nil_iff.mpr fun c _ => if_neg fun h => hgate h.2

theorem callsIn_ending (service : Service) (result : Option (Except Error Unit)) :
    callsIn (result.map (Entry.ending service)).toList = [] := by
  rcases result with _ | _ | _ <;> rfl

/-! ### What a move adds -/

namespace Pass

variable {E : Engine ρ} {move : Move} {pass : Pass} {site : Site (Recording ρ)}

/-- A move adds requests to those recorded. -/
theorem step_onward (E : Engine ρ) (move : Move) (pass : Pass) (site : Site (Recording ρ)) :
    ∃ new, (pass.step E.recorded move site).2.world.calls = site.world.calls ++ new := by
  have hkept : KeptByCalls E.recorded fun r => site.world.calls <+: r.calls := by
    intro q r h
    rw [E.recorded_calls]
    exact h.trans (List.prefix_append _ _)
  have hprefix : site.world.calls <+: (pass.step E.recorded move site).2.world.calls :=
    step_kept hkept move (fun _ _ h => h) List.prefix_rfl
  rcases hprefix with ⟨new, hnew⟩
  exact ⟨new, hnew.symm⟩

theorem news_eq {new : List Call}
    (h : (pass.step E.recorded move site).2.world.calls = site.world.calls ++ new) :
    pass.news E move site = new.map (.call pass.service (pass.polled move)) ++
      ((pass.step E.recorded move site).1.result?.map (.ending pass.service)).toList := by
  rw [news, h, List.drop_left]

theorem callsIn_news (E : Engine ρ) (move : Move) (pass : Pass) (site : Site (Recording ρ)) :
    (pass.step E.recorded move site).2.world.calls =
      site.world.calls ++ callsIn (pass.news E move site) := by
  rcases step_onward E move pass site with ⟨new, hnew⟩
  rw [news_eq hnew, callsIn_append, callsIn_map_call, callsIn_ending, List.append_nil]
  exact hnew

end Pass

namespace Rollout

variable {E : Engine ρ}

/-- What every move keeps, as the history grows, holds of the whole history. -/
theorem history_rule {J : List Entry → Rollout → Site (Recording ρ) → Prop}
    (hstep : ∀ move past rollout site, J past rollout site →
      let next := rollout.step E.recorded move site
      J (past ++ rollout.news E move site) next.1 next.2)
    (moves : List Move) {past : List Entry} {rollout : Rollout} {site : Site (Recording ρ)}
    (h : J past rollout site) :
    let next := play E.recorded moves rollout site
    J (past ++ history E moves rollout site) next.1 next.2 := by
  induction moves generalizing past rollout site with
  | nil =>
      rw [history, List.append_nil]
      exact h
  | cons move moves ih =>
      rw [history, ← List.append_assoc]
      exact ih (hstep move past rollout site h)

theorem afterPass_world (pass : Pass) (rest : List Service) (site : Site ρ) :
    (afterPass pass rest site).2.world = site.world := by
  rw [afterPass]
  rcases pass.result? with _ | _ | _ <;> rfl

/-- The requests in a history are those that were carried out, in the same order. -/
theorem callsIn_history (E : Engine ρ) (moves : List Move) (rollout : Rollout)
    (site : Site (Recording ρ)) :
    (play E.recorded moves rollout site).2.world.calls =
      site.world.calls ++ callsIn (history E moves rollout site) := by
  let J := fun (past : List Entry) (_ : Rollout) (now : Site (Recording ρ)) =>
    now.world.calls = site.world.calls ++ callsIn past
  have hstart : J [] rollout site := (List.append_nil _).symm
  refine history_rule (J := J) ?_ moves hstart
  intro move past rollout now h
  simp only [J] at h ⊢
  rw [callsIn_append, ← List.append_assoc, ← h]
  cases rollout with
  | ended result =>
      cases move with
      | cancel => exact (List.append_nil _).symm
      | _ => exact (List.append_nil _).symm
  | passing pass rest =>
      simp only [step, afterPass_world]
      exact Pass.callsIn_news E move pass now

end Rollout

end Fleet
