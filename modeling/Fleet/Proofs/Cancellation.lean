import Fleet.Proofs.Acyclic
import Fleet.Proofs.Cutoff
import Fleet.Proofs.Interleaving

/-!
# Rollouts that are ended by the caller

What comes of a rollout when the caller ends the work, at whatever moment. From that moment
on there are only last turns, of the tasks in flight (`Rollout.lastTurns_play`). If it was
ended before the rollout began, nothing is in flight, so nothing is asked for and nothing
is said. The first task is then turned away, a gate or the listing, and being turned away is
what the rollout reports (`Pass.turnedAway_step`): no task has begun, and the only failure
there is comes of that.

On the other hand a rollout reports success only if nothing has been left out. This is known
of each pass by itself, for a recording that begins with it (`Pass.listed_play`). A rollout
has one recording, in which the calls of a pass stand behind those of the passes before it,
and since these make no difference to the pass (`Engine.recorded_mirrors`), what is known
carries over to its segment of the calls (`Pass.accomplishes_of_ok`).

## Main definitions

* `Pass.TurnedAway`, `Rollout.TurnedAway`: Nothing has begun, and nothing will.
* `Pass.Accomplishes`: All that a pass had planned has been done.
* `Rollout.Accomplished`: Passes in a row that have done all they had planned.

## Theorems

* `Pass.inevitable_turnedAway`: What is turned away is bound to end with the cancellation.
* `Rollout.accomplished_of_passed`: Passes that have succeeded have done all they had planned.
* `Rollout.cut_off_by_cancellation`: What the end of the work does to a rollout.
-/

namespace Fleet

variable {σ W ρ : Type}

/-! ### Being turned away -/

/-- Nobody has begun, and nothing has failed but tasks that were turned away. -/
structure Group.Shut (g : Group σ) : Prop where
  awake : g.asleep = []
  fresh : ∀ slot ∈ g.slots, slot.started = false
  failure : g.failure = none ∨ g.failure = some .cancelled

namespace Group

variable {C : Conduct σ W} {g : Group σ} {w : W}

theorem shut_ofTasks (tasks : List σ) : (ofTasks tasks).Shut := by
  refine ⟨rfl, fun slot hslot => ?_, Or.inl rfl⟩
  rw [slots_ofTasks] at hslot
  rcases Multiset.mem_map.mp hslot with ⟨task, _, rfl⟩
  rfl

/-- After the end of the work a task that has its turn is turned away. -/
theorem shut_poll (hcancelled : C.cancelled w = true) (h : g.Shut) {place : Nat}
    (hplace : place < g.ready.length) : let next := g.poll C place w
    next.1.Shut ∧ next.1.failure = some .cancelled ∧ next.1.size + 1 = g.size ∧ next.2 = w := by
  have hslot : g.ready[place]? = some g.ready[place] := List.getElem?_eq_getElem hplace
  have hfresh : g.ready[place].started = false :=
    h.fresh _ (Multiset.mem_coe.mpr (List.mem_append_left _ (List.getElem_mem hplace)))
  have hstopped : C.stopped ⟨g.tripped, w⟩ = true := Bool.or_eq_true_iff.mpr (Or.inr hcancelled)
  rcases poll_of_finished hslot (guarded_of_stopped hfresh hstopped) h.awake with
    ⟨rest, hslots, hslots', hawake, hfailure, _, hworld⟩
  have hfailed : (g.poll C place w).1.failure = some .cancelled := by
    rw [hfailure]
    rcases h.failure with hnone | hsome
    · rw [hnone]
      rfl
    · rw [hsome]
      rfl
  refine ⟨⟨hawake, fun slot hmem => h.fresh slot ?_, Or.inr hfailed⟩, hfailed, ?_, hworld⟩
  · rw [hslots, ← hslots']
    exact Multiset.mem_cons_of_mem hmem
  · rw [← card_slots, ← card_slots, hslots, hslots', Multiset.card_cons]

end Group

namespace Pass

/-- A pass of which nothing has begun, and which comes to nothing. -/
def TurnedAway (pass : Pass) : Prop :=
  match pass.stage with
  | .gating gates => gates.Shut ∧ gates.isOver = false
  | .listing started waiting _ => started = false ∧ waiting = false
  | .working _ => False
  | .ended result => result = .error .cancelled

variable {E : Engine ρ} {pass : Pass} {site : Site ρ}

theorem turnedAway_start (project : Project) (service : Service) (grace : Option Nat)
    (marks : Marks) : (start project service grace marks).TurnedAway := by
  have hshut := Group.shut_ofTasks (service.healthDependencies.map Gate.Watch.fresh)
  cases hover : (Group.ofTasks (service.healthDependencies.map Gate.Watch.fresh)).isOver with
  | false =>
      rw [start, afterGates_of_going hover]
      exact ⟨hshut, hover⟩
  | true =>
      rw [start, afterGates_of_passed hover rfl]
      exact ⟨rfl, rfl⟩

theorem turnedAway_afterGates (pass : Pass) {gates : Group Gate.Watch} (h : gates.Shut)
    (hfailure : gates.failure = some .cancelled) :
    TurnedAway { pass with stage := afterGates gates } := by
  cases hover : gates.isOver with
  | false =>
      rw [afterGates_of_going hover]
      exact ⟨h, hover⟩
  | true =>
      rw [afterGates_of_failed hover hfailure]
      rfl

/-- A listing that has not begun is turned away after the end of the work. -/
theorem takeListing_turnedAway (pass : Pass) (errand : Errand (List Summary)) {w : ρ}
    (hcancelled : E.cancelled w = true) :
    pass.takeListing E false errand w = (.ended (.error .cancelled), w) := by
  rw [takeListing_eq, guarded, hcancelled]
  rfl

/-- After the end of the work every move keeps a pass turned away. -/
theorem turnedAway_step (move : Move) (hcancelled : E.cancelled site.world = true)
    (h : pass.TurnedAway) : (pass.step E move site).1.TurnedAway := by
  rcases pass with ⟨project, service, grace, marks, stage⟩
  cases stage with
  | gating gates =>
      rcases h with ⟨hshut, hgoing⟩
      have hsame : afterGates gates = .gating gates := afterGates_of_going hgoing
      cases move with
      | poll place =>
          simp only [step, Group.step]
          by_cases hplace : place < gates.ready.length
          · rcases Group.shut_poll (C := Gate.conduct E project.name) hcancelled hshut hplace with
              ⟨hshut', hfailure, _⟩
            exact turnedAway_afterGates ⟨project, service, grace, marks, .gating gates⟩ hshut'
              hfailure
          · have hnone : gates.ready[place]? = none :=
              List.getElem?_eq_none (Nat.le_of_not_lt hplace)
            rw [Group.poll_of_getElem?_none hnone, hsame]
            exact ⟨hshut, hgoing⟩
      | fire =>
          have hrouse : gates.rouse (Gate.conduct E project.name).wake = gates := by
            rw [Group.rouse, hshut.awake, List.map_nil, List.append_nil, ← hshut.awake]
          simp only [step, Group.step, hrouse, hsame]
          exact ⟨hshut, hgoing⟩
      | cancel =>
          have hheed : gates.heed (Gate.conduct E project.name) (E.cancel site.world) = gates := by
            rw [Group.heed]
            split
            · rw [Group.rouse, hshut.awake, List.map_nil, List.append_nil, ← hshut.awake]
            · rfl
          have hcancel : (Gate.conduct E project.name).cancel site.world = E.cancel site.world :=
            rfl
          simp only [step, Group.step, hcancel, hheed, hsame]
          exact ⟨hshut, hgoing⟩
  | listing started waiting errand =>
      rcases h with ⟨rfl, rfl⟩
      cases move with
      | poll place =>
          simp only [step, takeListing_turnedAway _ errand hcancelled]
          rfl
      | fire => exact ⟨rfl, rfl⟩
      | cancel => exact ⟨rfl, rfl⟩
  | working jobs => exact h.elim
  | ended result => cases move <;> exact h

/-- What is turned away is bound to end with the cancellation. -/
theorem inevitable_turnedAway (hcancelled : E.cancelled site.world = true) (h : pass.TurnedAway) :
    Inevitable E (fun result _ => result = .error .cancelled) pass site := by
  rcases pass with ⟨project, service, grace, marks, stage⟩
  cases stage with
  | ended result => exact .ended result rfl h
  | working jobs => exact h.elim
  | listing started waiting errand =>
      rcases h with ⟨rfl, rfl⟩
      refine .later ⟨.poll 0, rfl⟩ fun move henabled => ?_
      cases move with
      | poll place =>
          simp only [step, takeListing_turnedAway _ errand hcancelled]
          exact .ended _ rfl rfl
      | fire => cases henabled
      | cancel => exact henabled.elim
  | gating gates =>
      rcases h with ⟨hshut, hgoing⟩
      generalize hsize : gates.size = left
      induction left generalizing gates with
      | zero =>
          rw [← Group.card_slots, Multiset.card_eq_zero, Group.slots_eq_zero_iff, hgoing] at hsize
          cases hsize
      | succ left ih =>
          refine .later (Group.exists_enabled hgoing) fun move henabled => ?_
          cases move with
          | fire => exact absurd hshut.awake henabled
          | cancel => exact henabled.elim
          | poll place =>
              rcases Group.shut_poll (C := Gate.conduct E project.name) hcancelled hshut henabled
                with ⟨hshut', hfailure, hless, hworld⟩
              simp only [step, Group.step, hworld]
              generalize gates.poll (Gate.conduct E project.name) place site.world = next at *
              cases hover : next.1.isOver with
              | false =>
                  rw [afterGates_of_going hover]
                  exact ih _ hshut' hover (Nat.succ.inj (hless.trans hsize))
              | true =>
                  rw [afterGates_of_failed hover hfailure]
                  exact .ended _ rfl rfl

end Pass

namespace Rollout

variable {E : Engine ρ} {site : Site ρ}

/-- A rollout of which nothing has begun, and which comes to nothing. -/
def TurnedAway : Rollout → Prop
  | passing pass _ => pass.TurnedAway
  | ended result => result = .error .cancelled

theorem turnedAway_afterPass {pass : Pass} {rest : List Service} (h : pass.TurnedAway) :
    (afterPass pass rest site).1.TurnedAway := by
  rcases pass with ⟨project, service, grace, marks, stage⟩
  cases stage with
  | ended result =>
      cases (show result = .error .cancelled from h)
      rfl
  | _ => exact h

/-- After the end of the work a rollout of which nothing has begun ends with the cancellation or not
    at all, whatever the moves. -/
theorem turnedAway_play (h : E.Lasting) (moves : List Move) {rollout : Rollout}
    (hcancelled : E.cancelled site.world = true) (haway : rollout.TurnedAway) :
    (play E moves rollout site).1.TurnedAway := by
  induction moves generalizing rollout site with
  | nil => exact haway
  | cons move moves ih =>
      refine ih (cancelled_step h move rollout hcancelled) ?_
      cases rollout with
      | passing pass rest => exact turnedAway_afterPass (Pass.turnedAway_step move hcancelled haway)
      | ended result => cases move <;> exact haway

/-- The rollout of a project that has an order, and a service. -/
theorem exists_start {project : Project} (grace : Option Nat) (h : ¬project.Disordered)
    (hne : project.services ≠ []) : ∃ service rest,
      start project grace = passing (.start project service grace .none) rest := by
  rcases Project.exists_order h with ⟨order, horder⟩
  rw [start, horder]
  cases order with
  | nil =>
      have hperm := (Project.orders_of_ok horder).perm
      exact absurd hperm.symm.eq_nil hne
  | cons service rest => exact ⟨service, rest, rfl⟩

/-- A rollout that the caller has ended before it began reports nothing but the cancellation. -/
theorem result_of_cancelled (hlasting : E.Lasting) {project : Project} {grace : Option Nat}
    (h : ¬project.Disordered) (hne : project.services ≠ [])
    (hcancelled : E.cancelled site.world = true) (moves : List Move) {result : Except Error Unit}
    (hresult : (play E moves (start project grace) site).1.result? = some result) :
    result = .error .cancelled := by
  have haway : (play E moves (start project grace) site).1.TurnedAway := by
    refine turnedAway_play hlasting moves hcancelled ?_
    rcases exists_start grace h hne with ⟨service, rest, hstart⟩
    rw [hstart]
    exact Pass.turnedAway_start project service grace .none
  rcases hrollout : (play E moves (start project grace) site).1 with ⟨pass, rest⟩ | result'
  · rw [hrollout] at hresult
    cases hresult
  · rw [hrollout] at hresult haway
    rw [← Option.some.inj hresult]
    exact haway

/-- A rollout that the caller has ended before it began is bound to end with the cancellation. -/
theorem inevitable_turnedAway {project : Project} (grace : Option Nat)
    (h : ¬project.Disordered) (hne : project.services ≠ [])
    (hcancelled : E.cancelled site.world = true) :
    Inevitable E (fun result _ => result = .error .cancelled) (start project grace) site := by
  rcases exists_start grace h hne with ⟨service, rest, hstart⟩
  have hbound := inevitable_afterPass (P := fun result _ => result = .error .cancelled)
    (Pass.inevitable_turnedAway hcancelled (Pass.turnedAway_start project service grace .none)) rest
    (by
      rintro pass result after rfl rfl
      exact .ended _ rfl)
  rw [hstart]
  rw [afterPass, Pass.result?_start] at hbound
  exact hbound

end Rollout

/-! ### Success -/

namespace Pass

/-- All that a pass had planned for the containers it was told of has been done, with the calls
    given. -/
def Accomplishes (pass : Pass) (calls : List Call) : Prop :=
  ∃ (listing : List Summary) (plan : Plan) (runs : Multiset Run),
    (⟨.list pass.filter, .ok listing⟩ : Call) ∈ calls ∧
    Plan.ofListing listing pass.service.desiredScale = .ok plan ∧
    runs.map (·.item) = (pass.items plan : Multiset Item) ∧
    Interleaves (runs.map (·.calls)) (calls.filter (·.request.isMutation)) ∧
    ∀ run ∈ runs, run.Complete pass

variable {E : Engine ρ}

/-- A pass that succeeds has done all it had planned, with calls that stand behind those made
    before it. -/
theorem accomplishes_of_ok {project : Project} {service : Service} {grace : Option Nat}
    {marks : Marks} {before : Site (Recording ρ)} {moves : List Move}
    (hnoted : before.world.Noted E)
    (hok : (play E.recorded moves (start project service grace marks) before).1.result? =
      some (.ok ())) :
    let after := play E.recorded moves (start project service grace marks) before
    ∃ segment, after.2.world.calls = before.world.calls ++ segment ∧
      (start project service grace marks).Accomplishes segment ∧ after.2.world.Noted E := by
  intro after
  -- The same pass, with a recording that begins with it.
  let fresh : Site (Recording ρ) := ⟨.start E before.world.world, before.channel, before.recreated⟩
  have hbefore : before = fresh.map before.world.behind := by
    rcases before with ⟨⟨w, calls, interrupted⟩, channel, recreated⟩
    have hflag : (interrupted || E.cancelled w) = interrupted := by
      cases hcancelled : E.cancelled w with
      | false => rw [Bool.or_false]
      | true => rw [show interrupted = true from hnoted hcancelled]; rfl
    simp only [fresh, Site.map, Recording.behind, Recording.start, List.append_nil, hflag]
  have hplay := play_map (E.recorded_mirrors before.world) moves (start project service grace marks)
    fresh
  rw [← hbefore] at hplay
  have hlisted := listed_play E (start project service grace marks) fresh moves rfl id rfl
  have hresult : (play E.recorded moves (start project service grace marks) fresh).1.result? =
      some (.ok ()) := by
    rw [hplay] at hok
    exact hok
  refine ⟨_, congrArg (·.2.world.calls) hplay, ?_, ?_⟩
  · rcases hlisted with ⟨_, _, hwaits, _⟩ | ⟨_, _, _, _, _, ⟨_, hunplanned⟩ | hengaged⟩
    · exact absurd hresult hwaits.result_ne_ok
    · exact absurd hresult hunplanned.result_ne_ok
    · rcases asPlanned_of_engaged hengaged with ⟨listing, plan, runs, hplans, hplanned⟩
      have hfields := play_fields E.recorded moves (start project service grace marks) fresh
      rw [← hfields, hresult] at hplanned
      exact ⟨listing, plan, runs, hplans.1, hplans.2, hplanned.items, hplanned.interleaves,
        hplanned.complete rfl⟩
  · intro hcancelled
    have hafter : after = _ := hplay
    rw [hafter] at hcancelled ⊢
    rcases hlisted with ⟨hnoted', _⟩ | ⟨_, _, _, _, hnoted', _⟩
    · exact Bool.or_eq_true_iff.mpr (Or.inr (hnoted' hcancelled))
    · exact Bool.or_eq_true_iff.mpr (Or.inr (hnoted' hcancelled))

end Pass

namespace Rollout

/-- Passes in a row that have done all they had planned, each with its segment of the calls: the
    services they were about, and the marks and the site they have led to. -/
inductive Accomplished (E : Engine ρ) (project : Project) (grace : Option Nat)
    (site : Site (Recording ρ)) : List Service → Marks → Site (Recording ρ) → Prop
  | start : Accomplished E project grace site [] .none site
  | pass {done : List Service} {marks : Marks} {before after : Site (Recording ρ)}
    (service : Service) (segment : List Call) (moves : List Move) :
    Accomplished E project grace site done marks before →
    (Pass.play E.recorded moves (.start project service grace marks) before).2 = after →
    after.world.calls = before.world.calls ++ segment →
    (Pass.start project service grace marks).Accomplishes segment →
    Accomplished E project grace site (done ++ [service])
      ((Pass.start project service grace marks).marksAfter after) { after with recreated := false }

variable {E : Engine ρ} {project : Project} {grace : Option Nat}

/-- Passes that have succeeded have done all they had planned. -/
theorem accomplished_of_passed {site now : Site (Recording ρ)} {done : List Service} {marks : Marks}
    (hnoted : site.world.Noted E) (h : Passed E.recorded project grace site done marks now) :
    Accomplished E project grace site done marks now ∧ now.world.Noted E := by
  induction h with
  | start => exact ⟨.start, hnoted⟩
  | pass service moves _ hok ih =>
      rcases Pass.accomplishes_of_ok ih.2 hok with ⟨segment, hcalls, haccomplishes, hnoted'⟩
      exact ⟨.pass service segment moves ih.1 rfl hcalls haccomplishes, hnoted'⟩

/-- Whatever the engine, the moves, and the moment at which the caller ends the work. A move is a
    turn of one task at the most, and the task is out after it if the work has been ended by then,
    be it in the middle of the turn. Once the work has been ended there are only last turns of the
    tasks in flight, one of each at the most: no task that has not begun does anything, and no pass
    but the present one has tasks that have. If the work was ended before the rollout began, nothing
    is asked for and nothing is said, and the rollout of a project that has an order, and a service,
    comes to its end with the cancellation. A rollout reports success only if each service has had a
    pass that has done all it had planned. -/
theorem cut_off_by_cancellation (E : Engine ρ) (hlasting : E.Lasting) (project : Project)
    (grace : Option Nat) (w : ρ) (channel : Channel) (recreated : Bool) (moves : List Move) :
    let rollout := start project grace
    let site : Site (Recording ρ) := ⟨.start E w, channel, recreated⟩
    let after := play E.recorded moves rollout site
    (∀ first move rest, moves = first ++ move :: rest →
      let now := play E.recorded first rollout site
      let next := now.1.step E.recorded move now.2
      OneTurn E.recorded now.1.slots next.1.inFlight now.2 next.2) ∧
    (∀ first rest, moves = first ++ rest →
      let now := play E.recorded first rollout site
      E.cancelled now.2.world.world = true →
        LastTurns E.recorded now.1.inFlight now.2 after.2) ∧
    (E.cancelled w = true → after.2.world.calls = [] ∧ after.2.channel = channel ∧
      (¬project.Disordered → project.services ≠ [] →
        (∀ result, after.1.result? = some result → result = .error .cancelled) ∧
        Inevitable E.recorded (fun result _ => result = .error .cancelled) rollout site)) ∧
    (after.1.result? = some (.ok ()) → ∃ order marks now n,
      project.inDependencyOrder = .ok order ∧ order.Perm project.services ∧
      Accomplished E project grace site order marks now ∧
      after.2 = { now with world := E.recorded.cancel^[n] now.world }) := by
  intro rollout site after
  have hlast : ∀ first rest, moves = first ++ rest →
      let now := play E.recorded first rollout site
      E.cancelled now.2.world.world = true →
        LastTurns E.recorded now.1.inFlight now.2 after.2 := by
    rintro first rest hmoves now hcancelled
    have hafter : after = play E.recorded rest now.1 now.2 := by
      simp only [after, hmoves, now, play, List.foldl_append]
    rw [hafter]
    exact lastTurns_play hlasting.recorded rest hcancelled
  refine ⟨fun first move rest _ => oneTurn_step E.recorded move _ _, hlast, fun hcancelled => ?_,
    fun hok => ?_⟩
  · have hidle : LastTurns E.recorded rollout.inFlight site after.2 := hlast [] moves rfl hcancelled
    rw [inFlight_start] at hidle
    have hended : E.recorded.cancelled site.world = true := hcancelled
    exact ⟨hidle.idle.1, hidle.idle.2, fun hordered hne =>
      ⟨fun result => result_of_cancelled hlasting.recorded hordered hne hended moves,
        inevitable_turnedAway grace hordered hne hended⟩⟩
  · rcases passed_of_ok hok with ⟨order, marks, now, n, horder, hpassed, hafter⟩
    exact ⟨order, marks, now, n, horder, (Project.orders_of_ok horder).perm,
      (accomplished_of_passed (fun hcancelled => hcancelled) hpassed).1, hafter⟩

end Rollout

/-! ### A small rollout -/

/-- Requests of a drill may end the work, and do not take it back. -/
theorem Drill.engine_lasting : Drill.engine.Lasting := by
  have hcount : ∀ q (incidents : List Incident) (d : Drill), d.cancelled = true →
      (incidents.foldl (count q) d).cancelled = true := by
    intro q incidents
    induction incidents with
    | nil => exact fun _ hd => hd
    | cons incident rest ih =>
        intro d hd
        refine ih _ ?_
        rw [count]
        split
        · exact hd
        · split
          · cases incident.happening <;> first | exact hd | rfl
          · exact hd
  exact ⟨fun q d hd => hcount q d.incidents { d with incidents := [] } hd, fun _ => rfl⟩

/-- A rollout of two services that the caller has ended before it began asks for nothing, and is
    bound to end with the cancellation. -/
theorem Rollout.cut_off_sample :
    let E := Drill.engine
    let w : Drill := { Sample.drill with cancelled := true }
    let site : Site (Recording Drill) := ⟨.start E w, .fresh, false⟩
    E.Lasting ∧
      (play E.recorded [.poll 0, .poll 0] (start Sample.tiers none) site).2.world.calls = [] ∧
      Inevitable E.recorded (fun result _ => result = .error .cancelled)
        (start Sample.tiers none) site := by
  intro E w site
  rcases passed_of_ok Sample.rolled_ok with ⟨order, _, _, _, horder, _⟩
  have hcut := cut_off_by_cancellation E Drill.engine_lasting Sample.tiers none w .fresh false
    [.poll 0, .poll 0]
  rcases hcut.2.2.1 rfl with ⟨hcalls, _, hended⟩
  have hordered := (Project.orders_of_ok horder).not_disordered
  exact ⟨Drill.engine_lasting, hcalls, (hended hordered (List.cons_ne_nil _ _)).2⟩

end Fleet
