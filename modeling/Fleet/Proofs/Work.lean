import Fleet.Proofs.Item
import Fleet.Proofs.Throughout

/-!
# The runs of a pass

What the operations of a pass have asked for so far, whatever fails, whenever the work is
ended and whatever the order of moves. Each operation has a run, and the requests of the
pass are made up of them. Nothing is assumed of the runtime: everything here is about an
engine with a recording beside its state.

Why a run ends early is the delicate part. A run that met with a failure shows it, and
so does one that could not begin because a number is missing. A run that was dropped
shows nothing, since the token that was the reason may have been cancelled by a task of
which nothing is left. So the reason is kept in the journal from the moment at which the
token is cancelled: a run that failed or could not begin, or the caller (`Halted`).

A pass that has made no plan has no runs, and what kept it from making one is to be found
in what it has asked for since its gates opened (`Pass.Unplanned`). These calls have to be
told from earlier ones, since the gate of a service that waits for itself asks for the
same listing.

## Main definitions

* `Halted`: Something has put an end to the operations.
* `Journal`: The runs of all operations.
* `Pass.Unplanned`: Why a pass that has got to its listing has made no plan.
* `Pass.Engaged`: What is known of a pass that has made one.

## Theorems

* `journal_step`: Every move keeps the journal.
* `Pass.engaged_step`: A pass that has made a plan stays with it.
* `Pass.listed_step`: A pass that has got to its listing has a plan, or a reason to have none.
* `Pass.listed_play`: Whatever the moves, it is known what a pass has asked for.
-/

namespace Fleet

variable {ρ : Type}

/-- The caller is known to have put an end to the work if that is the case. -/
def Recording.Noted (E : Engine ρ) (r : Recording ρ) : Prop :=
  E.cancelled r.world = true → r.interrupted = true

/-- Something has put an end to the operations: the caller, a request that failed, or a number that
    is missing. -/
def Halted (pass : Pass) (interrupted : Bool) (runs : Multiset Run) : Prop :=
  interrupted = true ∨ ∃ run ∈ runs, run.Failed ∨ run.Barred pass

theorem Halted.mono {pass : Pass} {interrupted interrupted' : Bool} {runs runs' : Multiset Run}
    (h : Halted pass interrupted runs) (hinterrupted : interrupted = true → interrupted' = true)
    (hruns : runs ⊆ runs') : Halted pass interrupted' runs' := by
  rcases h with h | ⟨run, hrun, h⟩
  · exact Or.inl (hinterrupted h)
  · exact Or.inr ⟨run, hruns hrun, h⟩

/-! ### Journals -/

/-- The runs of all items: the live ones with their jobs, and those that are over. -/
structure Entries (pass : Pass) (items : Multiset Item) (r : Recording ρ)
    (slots : Multiset (Slot Job)) (failure : Option Error) (tripped : Bool)
    (live : Multiset (Slot Job × Run)) (past : Multiset Run) : Prop where
  slots : live.map (·.1) = slots
  items : (live.map (·.2) + past).map (·.item) = items
  interleaves : Interleaves ((live.map (·.2) + past).map (·.calls)) r.work
  tells : ∀ entry ∈ live, entry.2.Tells pass entry.1.task
  follows : ∀ run ∈ past, run.Follows pass
  ended : ∀ run ∈ past, run.Complete pass ∨ Halted pass r.interrupted past
  complete : failure = none → ∀ run ∈ past, run.Complete pass
  halted : tripped = true → Halted pass r.interrupted past

/-- The runs of all operations of a pass. -/
structure Journal (E : Engine ρ) (pass : Pass) (items : Multiset Item)
    (slots : Multiset (Slot Job)) (failure : Option Error)
    (scope : Scope (Site (Recording ρ))) : Prop where
  noted : scope.world.world.Noted E
  entries : ∃ live past, Entries pass items scope.world.world slots failure scope.tripped live past

/-- The journal with the run of one operation set apart. -/
structure Aside (pass : Pass) (items : Multiset Item) (r : Recording ρ) (failure : Option Error)
    (tripped : Bool) (run : Run) (live : Multiset (Slot Job × Run)) (past : Multiset Run) :
    Prop where
  items : run.item ::ₘ (live.map (·.2) + past).map (·.item) = items
  interleaves : Interleaves (run.calls ::ₘ (live.map (·.2) + past).map (·.calls)) r.work
  tells : ∀ entry ∈ live, entry.2.Tells pass entry.1.task
  follows : ∀ run ∈ past, run.Follows pass
  ended : ∀ run ∈ past, run.Complete pass ∨ Halted pass r.interrupted past
  complete : failure = none → ∀ run ∈ past, run.Complete pass
  halted : tripped = true → Halted pass r.interrupted past

section Journal

variable {E : Engine ρ} {pass : Pass} {items : Multiset Item} {slots : Multiset (Slot Job)}
  {failure : Option Error} {scope : Scope (Site (Recording ρ))} {r : Recording ρ}
  {tripped : Bool} {run : Run} {live : Multiset (Slot Job × Run)} {past : Multiset Run}

theorem Journal.exists_aside {slot : Slot Job} {rest : Multiset (Slot Job)}
    (h : Journal E pass items (slot ::ₘ rest) failure scope) :
    ∃ (run : Run) (live : Multiset (Slot Job × Run)) (past : Multiset Run),
      live.map (·.1) = rest ∧ run.Tells pass slot.task ∧
      Aside pass items scope.world.world failure scope.tripped run live past := by
  rcases h.entries with ⟨live, past, hentries⟩
  have hslot : slot ∈ live.map (·.1) := by
    rw [hentries.slots]
    exact Multiset.mem_cons_self _ _
  rcases Multiset.mem_map.mp hslot with ⟨⟨slot, run⟩, hentry, rfl⟩
  rcases Multiset.exists_cons_of_mem hentry with ⟨live, rfl⟩
  have hslots := hentries.slots
  have hitems := hentries.items
  have hinterleaves := hentries.interleaves
  rw [Multiset.map_cons, Multiset.cons_inj_right] at hslots
  rw [Multiset.map_cons, Multiset.cons_add, Multiset.map_cons] at hitems hinterleaves
  exact ⟨run, live, past, hslots, hentries.tells _ (Multiset.mem_cons_self _ _),
    ⟨hitems, hinterleaves,
      fun entry hentry => hentries.tells entry (Multiset.mem_cons_of_mem hentry),
      hentries.follows, hentries.ended, hentries.complete, hentries.halted⟩⟩

namespace Aside

/-- The run goes on. -/
theorem goOn {r' : Recording ρ} {new : List Call}
    (h : Aside pass items r failure tripped run live past) (hwork : r'.work = r.work ++ new)
    (hinterrupted : r.interrupted = true → r'.interrupted = true) :
    Aside pass items r' failure tripped ⟨run.item, run.calls ++ new⟩ live past := by
  refine ⟨h.items, ?_, h.tells, h.follows, ?_, h.complete, ?_⟩
  · rw [hwork]
    exact h.interleaves.append new
  · exact fun run hrun =>
      (h.ended run hrun).imp_right fun hhalted => hhalted.mono hinterrupted fun _ => id
  · exact fun htripped => (h.halted htripped).mono hinterrupted fun _ => id

/-- The operation is still on its way. -/
theorem journal_of_tells
    (h : Aside pass items scope.world.world failure scope.tripped run live past)
    (hnoted : scope.world.world.Noted E) {slot : Slot Job} (htells : run.Tells pass slot.task) :
    Journal E pass items (slot ::ₘ live.map (·.1)) failure scope := by
  refine ⟨hnoted, (slot, run) ::ₘ live, past, Multiset.map_cons _ _ _, ?_, ?_, ?_, h.follows,
    h.ended, h.complete, h.halted⟩
  · rw [Multiset.map_cons, Multiset.cons_add, Multiset.map_cons]
    exact h.items
  · rw [Multiset.map_cons, Multiset.cons_add, Multiset.map_cons]
    exact h.interleaves
  · intro entry hentry
    rcases Multiset.mem_cons.mp hentry with rfl | hentry
    · exact htells
    · exact h.tells entry hentry

/-- The operation is over. -/
theorem journal_of_over {site : Site (Recording ρ)}
    (h : Aside pass items site.world failure tripped run live past) (hnoted : site.world.Noted E)
    {failure' : Option Error} {tripped' : Bool} (hfollows : run.Follows pass)
    (hended : run.Complete pass ∨ Halted pass site.world.interrupted (run ::ₘ past))
    (hcomplete : failure' = none → failure = none ∧ run.Complete pass)
    (hhalted : tripped' = true → tripped = true ∨
      Halted pass site.world.interrupted (run ::ₘ past)) :
    Journal E pass items (live.map (·.1)) failure' ⟨tripped', site⟩ := by
  have hmore : past ⊆ run ::ₘ past := fun _ => Multiset.mem_cons_of_mem
  refine ⟨hnoted, live, run ::ₘ past, rfl, ?_, ?_, h.tells, ?_, ?_, ?_, ?_⟩
  · rw [Multiset.add_cons, Multiset.map_cons]
    exact h.items
  · rw [Multiset.add_cons, Multiset.map_cons]
    exact h.interleaves
  · intro run' hrun'
    rcases Multiset.mem_cons.mp hrun' with rfl | hrun'
    · exact hfollows
    · exact h.follows run' hrun'
  · intro run' hrun'
    rcases Multiset.mem_cons.mp hrun' with rfl | hrun'
    · exact hended
    · exact (h.ended run' hrun').imp_right fun hhalted => hhalted.mono id hmore
  · intro hnone run' hrun'
    rcases Multiset.mem_cons.mp hrun' with rfl | hrun'
    · exact (hcomplete hnone).2
    · exact h.complete (hcomplete hnone).1 run' hrun'
  · intro htripped
    rcases hhalted htripped with hbefore | hhalted
    · exact (h.halted hbefore).mono id hmore
    · exact hhalted

/-- The operation has had its turn. -/
theorem journal_of_ends {site : Site (Recording ρ)}
    (h : Aside pass items site.world failure tripped run live past)
    (hnoted : site.world.Noted E) {turn : Turn Job (Except Error Unit)}
    (hends : run.Ends pass turn) :
    Journal E pass items (turn.slots + live.map (·.1)) (failure.or turn.failure?)
      ⟨tripped || turn.failure?.isSome, site⟩ := by
  cases turn with
  | yielded job =>
      simp only [Turn.slots, Turn.failure?, Option.or_none, Option.isSome_none, Bool.or_false,
        Multiset.singleton_add]
      exact h.journal_of_tells hnoted hends
  | asleep job =>
      simp only [Turn.slots, Turn.failure?, Option.or_none, Option.isSome_none, Bool.or_false,
        Multiset.singleton_add]
      exact h.journal_of_tells hnoted hends
  | finished result =>
      have hself : run ∈ run ::ₘ past := Multiset.mem_cons_self _ _
      rw [Turn.slots, zero_add]
      cases result with
      | ok =>
          refine h.journal_of_over hnoted (Run.Complete.follows hends) (Or.inl hends) ?_ ?_
          · intro hnone
            exact ⟨(Option.or_eq_none_iff.mp hnone).1, hends⟩
          · intro htripped
            refine Or.inl ?_
            simpa only [Turn.failure?, Option.isSome_none, Bool.or_false] using htripped
      | error error =>
          have hhalted : Halted pass site.world.interrupted (run ::ₘ past) :=
            Or.inr ⟨run, hself, hends.2⟩
          refine h.journal_of_over hnoted hends.1 (Or.inr hhalted) ?_ fun _ => Or.inr hhalted
          intro hnone
          cases (Option.or_eq_none_iff.mp hnone).2

/-- The operation is dropped. -/
theorem journal_of_dropped {site : Site (Recording ρ)}
    (h : Aside pass items site.world failure tripped run live past)
    (hnoted : site.world.Noted E) (hfollows : run.Follows pass)
    (hstopped : (Job.conduct E.recorded).stopped ⟨tripped, site⟩ = true) :
    let turn : Turn Job (Except Error Unit) := .finished (.error .cancelled)
    Journal E pass items (turn.slots + live.map (·.1)) (failure.or turn.failure?)
      ⟨tripped || turn.failure?.isSome, site⟩ := by
  have hhalted : Halted pass site.world.interrupted (run ::ₘ past) := by
    rcases Bool.or_eq_true_iff.mp hstopped with htripped | hcancelled
    · exact (h.halted htripped).mono id fun _ => Multiset.mem_cons_of_mem
    · exact Or.inl (hnoted hcancelled)
  change Journal E pass items (0 + live.map (·.1)) _ _
  rw [zero_add]
  refine h.journal_of_over hnoted hfollows (Or.inr hhalted) ?_ fun _ => Or.inr hhalted
  intro hnone
  cases (Option.or_eq_none_iff.mp hnone).2

end Aside

/-! ### Moves -/

theorem noted_keptByCalls (E : Engine ρ) (interrupted : Bool) :
    KeptByCalls E.recorded fun r =>
      r.Noted E ∧ (interrupted = true → r.interrupted = true) := by
  intro q r h
  refine ⟨fun hcancelled => ?_, fun hinterrupted => ?_⟩
  · exact Bool.or_eq_true_iff.mpr (Or.inr hcancelled)
  · exact Bool.or_eq_true_iff.mpr (Or.inl (h.2 hinterrupted))

theorem journal_keptByTurns :
    Group.KeptByTurns (Job.conduct E.recorded) (Journal E pass items) := by
  intro slot rest failure scope h
  rcases h.exists_aside with ⟨run, live, past, rfl, htells, haside⟩
  rcases Run.resume_follows (E := E) scope.world htells with ⟨new, hwork, hends⟩
  have hbefore : scope.world.world.Noted E ∧
      (scope.world.world.interrupted = true → scope.world.world.interrupted = true) :=
    ⟨h.noted, id⟩
  have hkept := Job.resume_kept (noted_keptByCalls E scope.world.world.interrupted) slot.task
    hbefore
  have haside' := haside.goOn hwork hkept.2
  rcases Group.guarded_cases (Job.conduct E.recorded).stopped (Job.conduct E.recorded).resume
    slot.started slot.task scope with heq | ⟨heq, hstopped⟩ | ⟨heq, hstopped⟩
  · rw [heq]
    exact haside'.journal_of_ends hkept.1 hends
  · rw [heq]
    exact haside.journal_of_dropped h.noted htells.follows hstopped
  · rw [heq]
    exact haside'.journal_of_dropped hkept.1 hends.follows hstopped

theorem journal_keptByWaking :
    Group.KeptByWaking (Job.conduct E.recorded) (Journal E pass items) := by
  intro slot rest failure scope h
  rcases h.exists_aside with ⟨run, live, past, rfl, htells, haside⟩
  exact haside.journal_of_tells h.noted (Run.tells_wake.mpr htells)

theorem journal_keptByCancelling :
    Group.KeptByCancelling (Job.conduct E.recorded) (Journal E pass items) := by
  intro slots failure scope h
  have hinterrupted : scope.world.world.interrupted = true →
      (E.recorded.cancel scope.world.world).interrupted = true :=
    fun hinterrupted => Bool.or_eq_true_iff.mpr (Or.inl hinterrupted)
  rcases h.entries with ⟨live, past, hentries⟩
  refine ⟨fun hcancelled => Bool.or_eq_true_iff.mpr (Or.inr hcancelled), live, past,
    hentries.slots, hentries.items, hentries.interleaves, hentries.tells, hentries.follows, ?_,
    hentries.complete, ?_⟩
  · exact fun run hrun =>
      (hentries.ended run hrun).imp_right fun hhalted => hhalted.mono hinterrupted fun _ => id
  · exact fun htripped => (hentries.halted htripped).mono hinterrupted fun _ => id

/-- Every move keeps the journal. -/
theorem journal_step (move : Move) {g : Group Job} {site : Site (Recording ρ)}
    (h : Journal E pass items g.slots g.failure ⟨g.tripped, site⟩) :
    let next := g.step (Job.conduct E.recorded) move site
    Journal E pass items next.1.slots next.1.failure ⟨next.1.tripped, next.2⟩ :=
  Group.step_invariant journal_keptByTurns journal_keptByWaking move
    (fun _ => journal_keptByCancelling) h

/-- The journal of operations that have not begun. -/
theorem Journal.opening {site : Site (Recording ρ)} (hnoted : site.world.Noted E)
    (hwork : site.world.work = []) (items : List Item) :
    Journal E pass items
      (Group.ofTasks ((items.map (·.operation pass)).map Job.fresh)).slots none ⟨false, site⟩ := by
  let runs : Multiset Run := (items : Multiset Item).map (⟨·, []⟩)
  refine ⟨hnoted, runs.map fun run => (⟨Job.fresh (run.item.operation pass), false⟩, run), 0, ?_⟩
  have hlive : (runs.map fun run =>
      ((⟨Job.fresh (run.item.operation pass), false⟩ : Slot Job), run)).map (·.2) + 0 = runs := by
    rw [add_zero, Multiset.map_map]
    exact Multiset.map_id _
  refine ⟨?_, ?_, ?_, ?_, fun run hrun => absurd hrun (Multiset.notMem_zero run),
    fun run hrun => absurd hrun (Multiset.notMem_zero run),
    fun _ run hrun => absurd hrun (Multiset.notMem_zero run), nofun⟩
  · rw [Group.slots_ofTasks, ← Multiset.map_coe, ← Multiset.map_coe, Multiset.map_map,
      Multiset.map_map, Multiset.map_map, Multiset.map_map]
    rfl
  · rw [hlive, Multiset.map_map]
    exact Multiset.map_id _
  · rw [hlive, hwork]
    refine .nil fun part hpart => ?_
    rcases Multiset.mem_map.mp hpart with ⟨run, hrun, rfl⟩
    rcases Multiset.mem_map.mp hrun with ⟨item, _, rfl⟩
    rfl
  · intro entry hentry
    rcases Multiset.mem_map.mp hentry with ⟨run, hrun, rfl⟩
    rcases Multiset.mem_map.mp hrun with ⟨item, _, rfl⟩
    exact ⟨rfl, rfl⟩

end Journal

/-! ### Stages -/

/-- The call of a request on its way, once it has been carried out. -/
def Errand.calls (q : Request) : Errand q.Answer → List Call
  | .awaiting answer _ => [⟨q, answer⟩]
  | _ => []

/-- The call of a request at the end of a turn. -/
def Errand.callsAt (q : Request) : Turn (Errand q.Answer) (Except RuntimeError q.Answer) → List Call
  | .yielded errand => errand.calls q
  | .asleep errand => errand.calls q
  | .finished answer => [⟨q, answer⟩]

theorem Errand.calls_wake (q : Request) (errand : Errand q.Answer) :
    errand.wake.calls q = errand.calls q := by
  cases errand <;> rfl

/-- A request on its way is carried out once, and its answer is the one it brings. -/
theorem Errand.resume_calls (E : Engine ρ) {q : Request} {errand : Errand q.Answer}
    {r : Recording ρ} {before : List Call} (h : r.calls = before ++ errand.calls q) :
    (errand.resume E.recorded q r).2.calls =
      before ++ callsAt q (errand.resume E.recorded q r).1 := by
  by_cases hdue : errand.isDue
  · have hnone : errand.calls q = [] := by
      cases errand with
      | awaiting answer arrived => exact hdue.elim
      | _ => rfl
    rw [hnone, List.append_nil] at h
    rcases resume_of_isDue E.recorded q hdue r with ⟨turns, heq⟩ | heq
    · rw [heq]
      exact h.trans (List.append_nil _).symm
    · rw [heq, ← h]
      rcases issue_cases E.recorded q r with hissue | hissue
      · rw [hissue]
        rfl
      · rw [hissue]
        rfl
  · cases errand with
    | due => exact absurd trivial hdue
    | pausing _ => exact absurd trivial hdue
    | awaiting answer arrived =>
        rw [resume_awaiting]
        cases arrived with
        | true => exact h
        | false => exact h

theorem work_keptByLooking (E : Engine ρ) :
    KeptByLooking E.recorded fun r => r.Noted E ∧ r.work = [] := by
  intro q r hq h
  refine ⟨(noted_keptByCalls E false q r ⟨h.1, nofun⟩).1, ?_⟩
  rw [E.recorded_work_of_looking q r hq]
  exact h.2

namespace Pass

/-- The pass has been told of certain containers, and has made a plan for them. -/
def Plans (pass : Pass) (r : Recording ρ) (listing : List Summary) (plan : Plan) : Prop :=
  (⟨.list pass.filter, .ok listing⟩ : Call) ∈ r.calls ∧
    Plan.ofListing listing pass.service.desiredScale = .ok plan

/-- What is known of a pass that has not got to its listing. -/
def Waits : Stage → Prop
  | .gating _ => True
  | .ended result => ∃ error, result = .error error
  | _ => False

/-- Why a pass that has got to its listing has made no plan. `before` is what had been asked for
    when the gates opened. -/
inductive Unplanned (pass : Pass) (before : List Call) : Stage → Recording ρ → Prop
  -- Its listing is on its way. What has been recorded of it is the answer that the pass waits for.
  | listing {started waiting : Bool} {errand : Errand (List Summary)} {r : Recording ρ} :
    r.calls = before ++ Errand.calls (.list pass.filter) errand →
    Unplanned pass before (.listing started waiting errand) r
  -- Its listing failed.
  | refused {cause : RuntimeError} {r : Recording ρ} :
    r.calls = before ++ [⟨.list pass.filter, .error cause⟩] →
    Unplanned pass before (.ended (.error (.runtime cause))) r
  -- There is no plan for the containers listed, for want of a number.
  | unnumbered {listing : List Summary} {cause : NumberError} {r : Recording ρ} :
    r.calls = before ++ [⟨.list pass.filter, .ok listing⟩] →
    Plan.ofListing listing pass.service.desiredScale = .error cause →
    Unplanned pass before (.ended (.error (.number cause))) r
  -- The caller has put an end to the work.
  | cancelled {r : Recording ρ} : r.interrupted = true →
    Unplanned pass before (.ended (.error .cancelled)) r

/-- What is known of a pass that has made a plan. -/
def Carries (E : Engine ρ) (pass : Pass) (plan : Plan) (stage : Stage)
    (site : Site (Recording ρ)) : Prop :=
  match stage with
  | .working jobs =>
    Journal E pass (pass.items plan) jobs.slots jobs.failure ⟨jobs.tripped, site⟩
  | .ended result => ∃ failure tripped,
    Journal E pass (pass.items plan) 0 failure ⟨tripped, site⟩ ∧
      (result = .ok () → failure = none)
  | _ => False

/-- A pass has made a plan, and carries it out or has done so. -/
def Engaged (E : Engine ρ) (pass : Pass) (stage : Stage) (site : Site (Recording ρ)) : Prop :=
  ∃ listing plan, pass.Plans site.world listing plan ∧ Carries E pass plan stage site

/-- What is known of a pass that has got to its listing: it has changed nothing and there is a
    reason why it has made no plan, or it has made one. -/
def Listed (E : Engine ρ) (pass : Pass) (before : List Call) (stage : Stage)
    (site : Site (Recording ρ)) : Prop :=
  site.world.Noted E ∧
    (site.world.work = [] ∧ pass.Unplanned before stage site.world ∨ Engaged E pass stage site)

variable {E : Engine ρ} {pass : Pass} {site : Site (Recording ρ)}

theorem stage_of_result {pass : Pass} {result : Except Error Unit}
    (h : pass.result? = some result) : pass.stage = .ended result := by
  unfold result? at h
  cases hstage : pass.stage with
  | ended result' =>
      rw [hstage] at h
      rw [Option.some.inj h]
  | _ =>
      rw [hstage] at h
      cases h

theorem Waits.result_ne_ok (h : Waits pass.stage) : pass.result? ≠ some (.ok ()) := by
  intro hok
  rw [stage_of_result hok] at h
  rcases h with ⟨error, herror⟩
  cases herror

theorem Unplanned.result_ne_ok {next : Pass} {before : List Call} {r : Recording ρ}
    (h : pass.Unplanned before next.stage r) : next.result? ≠ some (.ok ()) := by
  intro hok
  rw [stage_of_result hok] at h
  cases h

theorem Unplanned.not_working {before : List Call} {jobs : Group Job} {r : Recording ρ} :
    ¬pass.Unplanned before (.working jobs) r := nofun

theorem Unplanned.mono {before : List Call} {stage : Stage} {r r' : Recording ρ}
    (h : pass.Unplanned before stage r) (hcalls : r'.calls = r.calls)
    (hinterrupted : r.interrupted = true → r'.interrupted = true) :
    pass.Unplanned before stage r' := by
  cases h with
  | listing h => exact .listing (hcalls.trans h)
  | refused h => exact .refused (hcalls.trans h)
  | unnumbered h hplan => exact .unnumbered (hcalls.trans h) hplan
  | cancelled h => exact .cancelled (hinterrupted h)

theorem Plans.mono {r r' : Recording ρ} {listing : List Summary} {plan : Plan}
    (h : pass.Plans r listing plan) (hcalls : r.calls ⊆ r'.calls) :
    pass.Plans r' listing plan := ⟨hcalls h.1, h.2⟩

theorem plans_keptByCalls (E : Engine ρ) (pass : Pass) (listing : List Summary) (plan : Plan) :
    KeptByCalls E.recorded fun r => pass.Plans r listing plan := by
  intro q r h
  refine h.mono ?_
  rw [E.recorded_calls]
  exact List.subset_append_left _ _

theorem noted_cancel (E : Engine ρ) (r : Recording ρ) : (E.recorded.cancel r).Noted E :=
  fun hcancelled => Bool.or_eq_true_iff.mpr (Or.inr hcancelled)

/-- A pass gets to its listing when its gates are open, and not otherwise. -/
theorem afterGates_cases (gates : Group Gate.Watch) :
    Waits (afterGates gates) ∨ afterGates gates = listFirst := by
  unfold afterGates
  cases gates.isOver with
  | false => exact Or.inl trivial
  | true =>
      cases gates.outcome with
      | ok => exact Or.inr rfl
      | error error => exact Or.inl ⟨error, rfl⟩

theorem listed_listFirst (hnoted : site.world.Noted E) (hwork : site.world.work = []) :
    Listed E pass site.world.calls listFirst site :=
  ⟨hnoted, Or.inl ⟨hwork, .listing (List.append_nil _).symm⟩⟩

theorem afterJobs_carries {plan : Plan} {jobs : Group Job}
    (h : Journal E pass (pass.items plan) jobs.slots jobs.failure ⟨jobs.tripped, site⟩) :
    Carries E pass plan (afterJobs jobs) site := by
  unfold afterJobs
  cases hover : jobs.isOver with
  | false => exact h
  | true =>
      rw [(Group.slots_eq_zero_iff jobs).mpr hover] at h
      refine ⟨jobs.failure, jobs.tripped, h, ?_⟩
      intro hok
      simp only [Group.outcome] at hok
      cases hfailure : jobs.failure with
      | none => rfl
      | some error =>
          rw [hfailure] at hok
          cases hok

theorem afterListing_listed {before : List Call} {listing : List Summary}
    (hnoted : site.world.Noted E) (hwork : site.world.work = [])
    (hcalls : site.world.calls = before ++ [⟨.list pass.filter, .ok listing⟩]) :
    Listed E pass before (pass.afterListing listing) site := by
  refine ⟨hnoted, ?_⟩
  unfold afterListing operations
  cases hplan : Plan.ofListing listing pass.service.desiredScale with
  | error cause => exact Or.inl ⟨hwork, .unnumbered hcalls hplan⟩
  | ok plan =>
      have hheard : (⟨.list pass.filter, .ok listing⟩ : Call) ∈ site.world.calls := by
        rw [hcalls]
        exact List.mem_append_right _ (List.mem_singleton_self _)
      simp only [Except.map, operations_eq_items]
      exact Or.inr ⟨listing, plan, ⟨hheard, hplan⟩,
        afterJobs_carries (.opening hnoted hwork (pass.items plan))⟩

theorem takeListing_listed (started : Bool) {before : List Call}
    {errand : Errand (List Summary)} (hnoted : site.world.Noted E) (hwork : site.world.work = [])
    (hcalls : site.world.calls = before ++ Errand.calls (.list pass.filter) errand) :
    let next := pass.takeListing E.recorded started errand site.world
    Listed E pass before next.1 { site with world := next.2 } := by
  have hkept := Errand.resume_keeps (work_keptByLooking E) (q := .list pass.filter) rfl errand
    ⟨hnoted, hwork⟩
  have hcalls' := Errand.resume_calls E hcalls
  rw [takeListing_eq]
  rcases Group.guarded_cases E.recorded.cancelled (listingTurn E.recorded pass) started errand
    site.world with heq | ⟨heq, hcancelled⟩ | ⟨heq, hcancelled⟩
  · rw [heq, listingTurn]
    rcases hresult : Errand.resume E.recorded (.list pass.filter) errand site.world with ⟨turn, r⟩
    rw [hresult] at hkept hcalls'
    cases turn with
    | yielded errand' => exact ⟨hkept.1, Or.inl ⟨hkept.2, .listing hcalls'⟩⟩
    | asleep errand' => exact ⟨hkept.1, Or.inl ⟨hkept.2, .listing hcalls'⟩⟩
    | finished answer =>
        cases answer with
        | error cause => exact ⟨hkept.1, Or.inl ⟨hkept.2, .refused hcalls'⟩⟩
        | ok listing =>
            have hlisted : Listed E pass before (pass.afterListing listing)
                { site with world := r } := afterListing_listed hkept.1 hkept.2 hcalls'
            exact hlisted
  -- A listing is dropped only once the caller has put an end to the work.
  · rw [heq]
    exact ⟨hnoted, Or.inl ⟨hwork, .cancelled (hnoted hcancelled)⟩⟩
  · rw [heq]
    exact ⟨hkept.1, Or.inl ⟨hkept.2, .cancelled (hkept.1 hcancelled)⟩⟩

/-- A move keeps what is known of a pass that has made a plan. -/
theorem carries_step (move : Move) {stage : Stage} {plan : Plan}
    (h : Carries E pass plan stage site) :
    let next := Pass.step E.recorded move { pass with stage } site
    next.2.world.Noted E ∧ Carries E pass plan next.1.stage next.2 := by
  cases stage with
  | working jobs =>
      have hstep := journal_step move h
      exact ⟨hstep.noted, afterJobs_carries hstep⟩
  | ended result =>
      rcases h with ⟨failure, tripped, hjournal, hok⟩
      cases move with
      | poll _ => exact ⟨hjournal.noted, failure, tripped, hjournal, hok⟩
      | fire => exact ⟨hjournal.noted, failure, tripped, hjournal, hok⟩
      | cancel => exact ⟨noted_cancel E site.world, failure, tripped,
          journal_keptByCancelling _ _ _ hjournal, hok⟩
  | _ => exact h.elim

/-- A pass that has made a plan stays with it. -/
theorem engaged_step (move : Move) {stage : Stage} (h : Engaged E pass stage site) :
    let next := Pass.step E.recorded move { pass with stage } site
    next.2.world.Noted E ∧ Engaged E pass next.1.stage next.2 := by
  rcases h with ⟨listing, plan, hplans, hcarries⟩
  have hplans' : pass.Plans (Pass.step E.recorded move { pass with stage } site).2.world
      listing plan :=
    step_kept (plans_keptByCalls E pass listing plan) move (fun _ r hr => hr) hplans
  have hstep := carries_step move hcarries
  exact ⟨hstep.1, listing, plan, hplans', hstep.2⟩

/-- A move of a pass that has not got to its listing changes nothing. -/
theorem waits_step (pass : Pass) (move : Move) {stage : Stage} (hnoted : site.world.Noted E)
    (hwork : site.world.work = []) (h : Waits stage) :
    let next := Pass.step E.recorded move { pass with stage } site
    (next.2.world.Noted E ∧ next.2.world.work = []) ∧
      (Waits next.1.stage ∨ next.1.stage = listFirst) := by
  cases stage with
  | gating gates =>
      have hkeeps := Gate.step_keeps (work_keptByLooking E) pass.project.name move
        (fun _ r hr => ⟨noted_cancel E r, hr.2⟩) gates ⟨hnoted, hwork⟩
      exact ⟨hkeeps, afterGates_cases _⟩
  | ended result =>
      cases move with
      | poll _ => exact ⟨⟨hnoted, hwork⟩, Or.inl h⟩
      | fire => exact ⟨⟨hnoted, hwork⟩, Or.inl h⟩
      | cancel => exact ⟨⟨noted_cancel E site.world, hwork⟩, Or.inl h⟩
  | _ => exact h.elim

/-- The end of the work keeps the reason why there is no plan. -/
theorem unplanned_cancel {before : List Call} {stage : Stage}
    (h : pass.Unplanned before stage site.world) :
    pass.Unplanned before stage (E.recorded.cancel site.world) :=
  h.mono rfl fun hinterrupted => Bool.or_eq_true_iff.mpr (Or.inl hinterrupted)

/-- A move keeps what is known of a pass that has got to its listing. -/
theorem listed_step (move : Move) {before : List Call} {stage : Stage}
    (h : Listed E pass before stage site) :
    let next := Pass.step E.recorded move { pass with stage } site
    Listed E pass before next.1.stage next.2 := by
  rcases h with ⟨hnoted, ⟨hwork, hunplanned⟩ | hengaged⟩
  · cases stage with
    | gating gates => cases hunplanned
    | listing started waiting errand =>
        have hcalls : site.world.calls = before ++ Errand.calls (.list pass.filter) errand := by
          cases hunplanned with
          | listing hcalls => exact hcalls
        cases move with
        | poll place => exact takeListing_listed started hnoted hwork hcalls
        | fire =>
            rw [← Errand.calls_wake] at hcalls
            exact ⟨hnoted, Or.inl ⟨hwork, .listing hcalls⟩⟩
        | cancel =>
            exact ⟨noted_cancel E site.world, Or.inl ⟨hwork, unplanned_cancel (.listing hcalls)⟩⟩
    | working jobs => exact (Unplanned.not_working hunplanned).elim
    | ended result =>
        cases move with
        | poll _ => exact ⟨hnoted, Or.inl ⟨hwork, hunplanned⟩⟩
        | fire => exact ⟨hnoted, Or.inl ⟨hwork, hunplanned⟩⟩
        | cancel =>
            exact ⟨noted_cancel E site.world, Or.inl ⟨hwork, unplanned_cancel hunplanned⟩⟩
  · have hstep := engaged_step move hengaged
    exact ⟨hstep.1, Or.inr hstep.2⟩

/-- A pass has at no moment of some moves got to its listing. -/
def NeverLists (E : Engine ρ) (pass : Pass) (site : Site (Recording ρ)) (moves : List Move) :
    Prop :=
  ∀ first rest started waiting errand, moves = first ++ rest →
    (play E.recorded first pass site).1.stage ≠ .listing started waiting errand

/-- The moves up to some moment have got a pass to its listing. -/
def Opens (E : Engine ρ) (pass : Pass) (site : Site (Recording ρ)) (first : List Move) : Prop :=
  (play E.recorded first pass site).1.stage = listFirst

/-- The gates of a pass have not opened, or they have at some moment, and then it is known what it
    has asked for since. -/
theorem listed_play (E : Engine ρ) (pass : Pass) (site : Site (Recording ρ)) (moves : List Move)
    {gates : Group Gate.Watch}
    (hstage : pass.stage = afterGates gates) (hnoted : site.world.Noted E)
    (hwork : site.world.work = []) :
    let next := play E.recorded moves pass site
    (next.2.world.Noted E ∧ next.2.world.work = [] ∧ Waits next.1.stage ∧
        NeverLists E pass site moves) ∨
      ∃ first rest, moves = first ++ rest ∧ Opens E pass site first ∧
        Listed E pass (play E.recorded first pass site).2.world.calls next.1.stage next.2 := by
  induction moves using List.reverseRecOn with
  | nil =>
      have hbegun := afterGates_cases gates
      rw [← hstage] at hbegun
      rcases hbegun with hwaits | hopens
      · refine Or.inl ⟨hnoted, hwork, hwaits, ?_⟩
        rintro first rest started waiting errand hmoves hlisting
        rw [(List.nil_eq_append_iff.mp hmoves).1] at hlisting
        have hstage' : pass.stage = .listing started waiting errand := hlisting
        rw [hstage'] at hwaits
        exact hwaits
      · refine Or.inr ⟨[], [], rfl, hopens, ?_⟩
        have hlisted : Listed E pass site.world.calls pass.stage site := by
          rw [hopens]
          exact listed_listFirst hnoted hwork
        exact hlisted
  | append_singleton moves move ih =>
      have hfields := play_fields E.recorded moves pass site
      rw [play_concat]
      rcases ih with ⟨hnoted', hwork', hwaits, hnever⟩ | ⟨first, rest, rfl, hopens, hlisted⟩
      · have hstep := waits_step pass move hnoted' hwork' hwaits
        rw [← hfields] at hstep
        rcases hstep with ⟨⟨hnoted'', hwork''⟩, hwaits' | hopens⟩
        · refine Or.inl ⟨hnoted'', hwork'', hwaits', ?_⟩
          intro first rest started waiting errand hmoves hlisting
          -- The moment in question is the last one, or one of those before.
          rcases List.eq_nil_or_concat rest with rfl | ⟨rest, last, rfl⟩
          · rw [List.append_nil] at hmoves
            rw [← hmoves, play_concat] at hlisting
            rw [hlisting] at hwaits'
            exact hwaits'
          · rw [List.concat_eq_append, ← List.append_assoc] at hmoves
            exact hnever first rest started waiting errand (List.append_inj' hmoves rfl).1 hlisting
        · refine Or.inr ⟨moves ++ [move], [], (List.append_nil _).symm, ?_, ?_⟩
          · rw [Opens, play_concat]
            exact hopens
          · rw [hopens, play_concat]
            exact listed_listFirst hnoted'' hwork''
      · refine Or.inr ⟨first, rest ++ [move], List.append_assoc _ _ _, hopens, ?_⟩
        have hstep := listed_step move hlisted
        rw [← hfields] at hstep
        exact hstep

end Pass

end Fleet
