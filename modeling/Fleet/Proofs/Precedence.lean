import Fleet.Proofs.History

/-!
# Dependencies come first

Nothing is changed for a service before everything it depends on has had its pass with
success, and before everything that has to be healthy for it has been seen healthy since.
This holds whatever the runtime answers, under every order of moves, and at every moment
of a rollout and not only if it comes to a good end. It is read off the history, where
the ends of passes stand among the requests.

The order of passes gives the first half. The second half is carried through the stages of
a pass: while it waits, each gate has its own requests to show for what it has got to
(`Gate.Asked`); when all have let it through, the last requests of each are those of a poll
that passes, and from then on no gate makes any more (`Pass.Cleared`). As a pass looks only
until it carries out its plan, that is all there is to know at its first request that
could change something.

## Main definitions

* `Prepared`: What has happened when something is changed for a service.
* `Pass.Cleared`: What the requests of its gates show at a stage of a pass.
* `Rollout.Underway`: What is known of a rollout from its history.

## Theorems

* `Pass.cleared_step`: Every move keeps what the requests show.
* `Rollout.Underway.prepared`: A pass that carries out its plan is prepared.
* `Rollout.dependencies_first`: Dependencies come first.
-/

namespace Fleet

variable {ρ : Type} {E : Engine ρ}

/-- What has happened when something is changed for a service: each service that it depends on has
    passed, and since those have passed that have to be healthy, the last requests of their gates
    are those of a poll that passes. -/
structure Prepared (project : Project) (service : Service) (past : List Entry) : Prop where
  passed : ∀ name ∈ service.dependencies, ∃ dependency ∈ project.services,
    dependency.name = name ∧ .passed dependency ∈ past
  healthy : ∀ name ∈ service.healthDependencies, ∃ dependency ∈ project.services,
    dependency.name = name ∧ ∃ earlier later, past = earlier ++ .passed dependency :: later ∧
      Gate.Passed project.name name (askedBy service.name name later)

/-! ### Passes -/

/-- The pass waits for its gates. -/
def Stage.isGating : Stage → Bool
  | gating _ => true
  | _ => false

namespace Pass

variable {pass : Pass} {site : Site (Recording ρ)} {own : String → List Call}

/-- What the requests of its gates show at a stage of a pass: how far the gates have got, and that
    all have passed if it is past them. -/
def Cleared (pass : Pass) (own : String → List Call) : Prop :=
  match pass.stage with
  | .gating gates =>
    Gate.Asked pass.project.name pass.service.healthDependencies own gates.slots gates.failure
  | .ended (.error _) => True
  | _ => ∀ name ∈ pass.service.healthDependencies, Gate.Passed pass.project.name name (own name)

theorem cleared_of_passed (hstage : pass.stage.isGating = false)
    (h : ∀ name ∈ pass.service.healthDependencies,
      Gate.Passed pass.project.name name (own name)) : pass.Cleared own := by
  rcases pass with ⟨project, service, grace, marks, stage⟩
  cases stage with
  | gating gates => cases hstage
  | ended result =>
      cases result with
      | error error => exact trivial
      | ok => exact h
  | _ => exact h

theorem cleared_afterGates (pass : Pass) (gates : Group Gate.Watch)
    (h : Gate.Asked pass.project.name pass.service.healthDependencies own gates.slots
      gates.failure) : Cleared { pass with stage := afterGates gates } own := by
  cases hover : gates.isOver with
  | false =>
      rw [afterGates_of_going hover]
      exact h
  | true =>
      rw [(Group.slots_eq_zero_iff gates).mpr hover] at h
      cases hfailure : gates.failure with
      | some error =>
          rw [afterGates_of_failed hover hfailure]
          exact trivial
      | none =>
          rw [afterGates_of_passed hover hfailure]
          rw [hfailure] at h
          exact h.passed_of_over

/-- A pass at its beginning has its gates before it. -/
theorem cleared_start (project : Project) (service : Service) (grace : Option Nat) (marks : Marks)
    (own : String → List Call) : (start project service grace marks).Cleared own :=
  cleared_afterGates (start project service grace marks) _
    (Gate.asked_ofTasks project.name service.nodup_healthDependencies own)

theorem isGating_afterJobs (jobs : Group Job) : (afterJobs jobs).isGating = false := by
  unfold afterJobs
  split
  · rfl
  · rfl

theorem isGating_afterListing (pass : Pass) (listing : List Summary) :
    (pass.afterListing listing).isGating = false := by
  unfold afterListing
  cases pass.operations listing with
  | error cause => rfl
  | ok operations => exact isGating_afterJobs _

/-- A pass that is past its gates does not come back to them. -/
theorem isGating_step (move : Move) (hstage : pass.stage.isGating = false) :
    (pass.step E.recorded move site).1.stage.isGating = false := by
  rcases pass with ⟨project, service, grace, marks, stage⟩
  cases stage with
  | gating gates => cases hstage
  | listing started waiting errand =>
      cases move with
      | poll place =>
          simp only [step, takeListing_eq]
          rcases (guarded E.recorded.cancelled _ started errand site.world).1 with _ | _ | _ | _ | _
          · rfl
          · rfl
          · rfl
          · rfl
          · exact isGating_afterListing _ _
      | fire => rfl
      | cancel => rfl
  | working jobs => exact isGating_afterJobs _
  | ended result => cases move <;> rfl

/-- Every move keeps what the requests show. -/
theorem cleared_step (move : Move) (site : Site (Recording ρ)) (h : pass.Cleared own) :
    let next := pass.step E.recorded move site
    ∃ new, next.2.world.calls = site.world.calls ++ new ∧
      next.1.Cleared (Gate.adding own (pass.polled move) new) := by
  rcases pass with ⟨project, service, grace, marks, stage⟩
  have hpast : ∀ stage : Stage, stage.isGating = false →
      (∀ name ∈ service.healthDependencies, Gate.Passed project.name name (own name)) →
      let next := step E.recorded move ⟨project, service, grace, marks, stage⟩ site
      ∃ new, next.2.world.calls = site.world.calls ++ new ∧ next.1.Cleared own := by
    intro stage hstage hpassed
    rcases step_onward E move ⟨project, service, grace, marks, stage⟩ site with ⟨new, hnew⟩
    refine ⟨new, hnew, cleared_of_passed (isGating_step move hstage) ?_⟩
    rw [step_fields]
    exact hpassed
  have hsame : ∀ new, Gate.adding own none new = own := fun new =>
    funext fun name => List.append_nil _
  cases stage with
  | gating gates =>
      rcases Gate.asked_step (E := E) move (r := site.world) h with ⟨new, hcalls, hasked⟩
      exact ⟨new, hcalls, cleared_afterGates ⟨project, service, grace, marks, _⟩ _ hasked⟩
  | listing started waiting errand =>
      simp only [polled, hsame]
      exact hpast _ rfl h
  | working jobs =>
      simp only [polled, hsame]
      exact hpast _ rfl h
  | ended result =>
      cases result with
      | ok =>
          simp only [polled, hsame]
          exact hpast _ rfl h
      | error error =>
          rcases step_onward E move ⟨project, service, grace, marks, .ended (.error error)⟩ site
            with ⟨new, hnew⟩
          refine ⟨new, hnew, ?_⟩
          cases move <;> exact trivial

/-- Until a plan is carried out a move only looks. -/
theorem step_looks (move : Move) (hstage : ∀ jobs, pass.stage ≠ .working jobs) {new : List Call}
    (hnew : (pass.step E.recorded move site).2.world.calls = site.world.calls ++ new) :
    ∀ c ∈ new, c.request.isMutation = false := by
  have hlooking : KeptByLooking E.recorded fun r => ∃ seen, r.calls = site.world.calls ++ seen ∧
      ∀ c ∈ seen, c.request.isMutation = false := by
    rintro q r hq ⟨seen, hseen, hlooks⟩
    refine ⟨seen ++ [⟨q, (E.recorded.call q r).1⟩], ?_, ?_⟩
    · rw [E.recorded_calls, hseen, List.append_assoc]
    · intro c hc
      rcases List.mem_append.mp hc with hc | hc
      · exact hlooks c hc
      · rw [List.mem_singleton.mp hc]
        exact hq
  have hstep := step_keeps hlooking move (fun _ _ h => h) hstage
    ⟨[], (List.append_nil _).symm, fun _ hc => absurd hc List.not_mem_nil⟩
  rcases hstep with ⟨seen, hseen, hlooks⟩
  rw [List.append_cancel_left (hnew.symm.trans hseen)]
  exact hlooks

end Pass

/-! ### Rollouts -/

/-- What a history has to be at each of its requests: no pass has failed before, and the service is
    prepared if the request may change something. -/
def Orderly (project : Project) (history : List Entry) : Prop :=
  ∀ past service gate c later, history = past ++ .call service gate c :: later →
    (∀ failed error, .failed failed error ∉ past) ∧
      (c.request.isMutation = true → Prepared project service past)

/-- A history that goes on is still as it has to be if it is at each request that is added. -/
theorem Orderly.append {project : Project} {past news : List Entry} (h : Orderly project past)
    (hnews : ∀ before service gate c after, news = before ++ .call service gate c :: after →
      (∀ failed error, .failed failed error ∉ past ++ before) ∧
        (c.request.isMutation = true → Prepared project service (past ++ before))) :
    Orderly project (past ++ news) := by
  intro before service gate c after hsplit
  rcases List.append_eq_append_iff.mp hsplit with ⟨new, rfl, hnew⟩ | ⟨old, hold, hnew⟩
  · exact hnews new service gate c after hnew
  · cases old with
    | nil =>
        rw [List.append_nil] at hold
        have hfirst := hnews [] service gate c after hnew.symm
        rw [List.append_nil, hold] at hfirst
        exact hfirst
    | cons entry old =>
        rcases List.cons.inj hnew with ⟨rfl, _⟩
        exact h before service gate c old hold

/-- A request among the news of a pass is one of its own, and only such come before it. -/
theorem split_news {service : Service} {gate : Option String} {calls : List Call}
    {result : Option (Except Error Unit)} {before after : List Entry} {s : Service}
    {g : Option String} {c : Call}
    (h : calls.map (.call service gate) ++ (result.map (.ending service)).toList =
      before ++ .call s g c :: after) :
    s = service ∧ c ∈ calls ∧ ∃ first : List Call, before = first.map (.call service gate) := by
  have hending : ∀ entries, .call s g c ∈ entries →
      entries <:+ (result.map (Entry.ending service)).toList → False := by
    intro entries hmem hsuffix
    rcases result with _ | result
    · exact absurd (hsuffix.subset hmem) List.not_mem_nil
    · have hentry := List.mem_singleton.mp (hsuffix.subset hmem)
      cases result <;> cases hentry
  rcases List.append_eq_append_iff.mp h with ⟨more, _, hrest⟩ | ⟨more, hcalls, hrest⟩
  · exact (hending _ List.mem_cons_self ⟨more, hrest.symm⟩).elim
  · cases more with
    | nil => exact (hending _ List.mem_cons_self ⟨[], hrest⟩).elim
    | cons entry more =>
        rcases List.cons.inj hrest with ⟨rfl, _⟩
        rcases List.map_eq_append_iff.mp hcalls with ⟨first, second, rfl, rfl, hsecond⟩
        rcases List.map_eq_cons_iff.mp hsecond with ⟨c', second', rfl, hc', _⟩
        cases hc'
        exact ⟨rfl, List.mem_append_right _ List.mem_cons_self, first, rfl⟩

namespace Rollout

/-- What is known of a rollout in a pass from its history: no pass has failed, those over the
    services that come before have succeeded, and what has happened since shows how far the gates of
    this one have got. -/
structure Underway (project : Project) (past : List Entry) (pass : Pass) (rest : List Service) :
    Prop where
  same : pass.project = project
  unfailed : ∀ failed error, .failed failed error ∉ past
  begun : ∃ done earlier current,
    project.inDependencyOrder = .ok (done ++ pass.service :: rest) ∧ past = earlier ++ current ∧
    (∀ service ∈ done, .passed service ∈ earlier) ∧
    pass.Cleared fun name => askedBy pass.service.name name current

variable {project : Project} {past : List Entry} {pass : Pass} {rest : List Service}
  {site : Site (Recording ρ)}

/-- A pass that carries out its plan is prepared, whatever it has asked for already. -/
theorem Underway.prepared (h : Underway project past pass rest) {jobs : Group Job}
    (hworking : pass.stage = .working jobs) (calls : List Call) :
    Prepared project pass.service (past ++ calls.map (.call pass.service none)) := by
  rcases h.begun with ⟨done, earlier, current, horder, rfl, hdone, hcleared⟩
  have horders := Project.orders_of_ok horder
  -- A service that this one depends on comes before it, so its pass is over.
  have hdependency : ∀ name ∈ pass.service.dependencies, ∃ dependency ∈ project.services,
      dependency.name = name ∧ .passed dependency ∈ earlier := by
    intro name hname
    have hbefore := (horders.ordered.before hname).resolve_left List.not_mem_nil
    rcases List.mem_map.mp hbefore with ⟨dependency, hmem, hdependency⟩
    exact ⟨dependency, horders.perm.mem_iff.mp (List.mem_append_left _ hmem), hdependency,
      hdone dependency hmem⟩
  refine ⟨fun name hname => ?_, fun name hname => ?_⟩
  · rcases hdependency name hname with ⟨dependency, hmem, hsame, hpassed⟩
    exact ⟨dependency, hmem, hsame,
      List.mem_append_left _ (List.mem_append_left _ hpassed)⟩
  · rcases hdependency name (pass.service.healthDependencies_subset hname) with
      ⟨dependency, hmem, hsame, hpassed⟩
    rcases List.append_of_mem hpassed with ⟨first, second, rfl⟩
    refine ⟨dependency, hmem, hsame, first,
      second ++ current ++ calls.map (.call pass.service none), ?_, ?_⟩
    · simp only [List.append_assoc, List.cons_append]
    · have hgate : Gate.Passed project.name name (askedBy pass.service.name name current) := by
        rw [Pass.Cleared, hworking, h.same] at hcleared
        exact hcleared name hname
      rw [askedBy_append, askedBy_append, askedBy_map_call, if_neg nofun, List.append_nil]
      exact hgate.behind _

/-- Requests alone leave it so that no pass has failed. -/
theorem Underway.unfailed_append (h : Underway project past pass rest) (service : Service)
    (gate : Option String) (calls : List Call) (failed : Service) (error : Error) :
    .failed failed error ∉ past ++ calls.map (.call service gate) := by
  intro hmem
  rcases List.mem_append.mp hmem with hmem | hmem
  · exact h.unfailed failed error hmem
  · rcases List.mem_map.mp hmem with ⟨_, _, hentry⟩
    cases hentry

/-- The requests made in a move of a pass are as they have to be. -/
theorem Underway.orderly (h : Underway project past pass rest) (horderly : Orderly project past)
    (move : Move) : Orderly project (past ++ pass.news E move site) := by
  rcases Pass.step_onward E move pass site with ⟨new, hnew⟩
  rw [Pass.news_eq hnew]
  refine horderly.append fun before service gate c after hsplit => ?_
  rcases split_news hsplit with ⟨rfl, hc, first, rfl⟩
  refine ⟨h.unfailed_append _ _ first, fun hmutation => ?_⟩
  by_cases hworking : ∃ jobs, pass.stage = .working jobs
  · rcases hworking with ⟨jobs, hstage⟩
    have hpolled : pass.polled move = none := by rw [Pass.polled, hstage]
    rw [hpolled]
    exact h.prepared hstage first
  · have hlooks := Pass.step_looks move (fun jobs hstage => hworking ⟨jobs, hstage⟩) hnew c hc
    rw [hlooks] at hmutation
    cases hmutation

/-- A move of the pass adds its requests to the history, and the same things are known. -/
theorem Underway.step (h : Underway project past pass rest) (move : Move) {new : List Call}
    (hnew : (pass.step E.recorded move site).2.world.calls = site.world.calls ++ new) :
    Underway project (past ++ new.map (.call pass.service (pass.polled move)))
      (pass.step E.recorded move site).1 rest := by
  rcases h.begun with ⟨done, earlier, current, horder, hpast, hdone, hcleared⟩
  rcases Pass.cleared_step (E := E) move site hcleared with ⟨new', hnew', hcleared'⟩
  cases List.append_cancel_left (hnew.symm.trans hnew')
  have hfields := Pass.step_fields E.recorded move pass site
  have hservice : (pass.step E.recorded move site).1.service = pass.service :=
    (congrArg Pass.service hfields).trans rfl
  have hproject : (pass.step E.recorded move site).1.project = pass.project :=
    (congrArg Pass.project hfields).trans rfl
  refine ⟨hproject.trans h.same, h.unfailed_append _ _ new, done, earlier,
    current ++ new.map (.call pass.service (pass.polled move)), ?_, ?_, hdone, ?_⟩
  · rw [hservice]
    exact horder
  · rw [hpast, List.append_assoc]
  · rw [hservice]
    simp only [askedBy_append, askedBy_map_call]
    exact hcleared'

/-- What is known of a rollout from its history, at its end nothing. -/
def Known (project : Project) (past : List Entry) : Rollout → Prop
  | passing pass rest => Underway project past pass rest
  | ended _ => True

theorem known_proceed {done rest : List Service} {grace : Option Nat} {marks : Marks}
    (horder : project.inDependencyOrder = .ok (done ++ rest))
    (hunfailed : ∀ failed error, .failed failed error ∉ past)
    (hdone : ∀ service ∈ done, .passed service ∈ past) :
    Known project past (proceed project grace marks rest) := by
  cases rest with
  | nil => exact trivial
  | cons service rest =>
      exact ⟨rfl, hunfailed, done, past, [], horder, (List.append_nil _).symm, hdone,
        Pass.cleared_start project service grace marks _⟩

/-- When a pass is over with success, the rollout goes on to the next one. -/
theorem Underway.finished (h : Underway project past pass rest) (grace : Option Nat)
    (marks : Marks) :
    Known project (past ++ [.passed pass.service]) (proceed project grace marks rest) := by
  rcases h.begun with ⟨done, earlier, current, horder, rfl, hdone, _⟩
  have horder' : project.inDependencyOrder = .ok (done ++ [pass.service] ++ rest) := by
    rw [List.append_assoc]
    exact horder
  refine known_proceed horder' ?_ ?_
  · intro failed error hmem
    rcases List.mem_append.mp hmem with hmem | hmem
    · exact h.unfailed failed error hmem
    · cases List.mem_singleton.mp hmem
  · intro service hservice
    rcases List.mem_append.mp hservice with hmem | hmem
    · exact List.mem_append_left _ (List.mem_append_left _ (hdone service hmem))
    · rw [List.mem_singleton.mp hmem]
      exact List.mem_append_right _ (List.mem_singleton_self _)

/-- Every move of the pass that a rollout has come to keeps what is known of it. -/
theorem Underway.known (h : Underway project past pass rest) (move : Move) :
    let next := pass.step E.recorded move site
    Known project (past ++ pass.news E move site) (afterPass next.1 rest next.2).1 := by
  intro next
  rcases Pass.step_onward E move pass site with ⟨new, hnew⟩
  have hunderway : Underway project _ next.1 rest := h.step move hnew
  have hservice : next.1.service = pass.service :=
    (congrArg Pass.service (Pass.step_fields E.recorded move pass site)).trans rfl
  rw [Pass.news_eq hnew, afterPass, ← List.append_assoc]
  change Known project (_ ++ (next.1.result?.map _).toList) _
  cases hresult : next.1.result? with
  | none =>
      simp only [Option.map_none, Option.toList_none, List.append_nil]
      exact hunderway
  | some result =>
      cases result with
      | error error => exact trivial
      | ok =>
          simp only [Option.map_some, Option.toList_some, hunderway.same]
          have hfinished := hunderway.finished next.1.grace (next.1.marksAfter next.2)
          rw [hservice] at hfinished
          exact hfinished

/-- A rollout at its beginning has no history. -/
theorem known_start (project : Project) (grace : Option Nat) :
    Known project [] (start project grace) := by
  rw [start]
  cases horder : project.inDependencyOrder with
  | error cause => exact trivial
  | ok order =>
      have hnil : project.inDependencyOrder = .ok ([] ++ order) := horder
      exact known_proceed hnil (fun _ _ hmem => absurd hmem List.not_mem_nil)
        fun _ hmem => absurd hmem List.not_mem_nil

/-- Nothing happens in a rollout that is at its end. -/
theorem history_ended (moves : List Move) (result : Except Error Unit) :
    history E moves (ended result) site = [] := by
  induction moves generalizing site with
  | nil => rfl
  | cons move moves ih => cases move <;> exact ih

/-- Whatever the runtime answers, and whatever the order of moves, dependencies come first. If a
    project cannot be put in order, no request is made. Otherwise whenever a request is made in the
    pass of a service, no pass has failed before, and if the request may change something,
    everything that the service depends on has passed, and what has to be healthy has since been
    seen healthy by a poll of its gate. -/
theorem dependencies_first (E : Engine ρ) (project : Project) (grace : Option Nat) (w : ρ)
    (channel : Channel) (recreated : Bool) (moves : List Move) :
    let site : Site (Recording ρ) := ⟨.start E w, channel, recreated⟩
    let history := history E moves (start project grace) site
    (play E.recorded moves (start project grace) site).2.world.calls = callsIn history ∧
      (project.Disordered → callsIn history = []) ∧ Orderly project history := by
  intro site history
  refine ⟨callsIn_history E moves (start project grace) site, fun hdisordered => ?_, ?_⟩
  · have hended : ∃ result, start project grace = ended result := by
      rw [start]
      cases horder : project.inDependencyOrder with
      | error cause => exact ⟨_, rfl⟩
      | ok order => exact absurd hdisordered (Project.orders_of_ok horder).not_disordered
    rcases hended with ⟨result, hended⟩
    simp only [history, hended, history_ended]
    rfl
  · let J := fun (past : List Entry) (rollout : Rollout) (_ : Site (Recording ρ)) =>
      Orderly project past ∧ Known project past rollout
    have hstart : J [] (start project grace) site := by
      refine ⟨fun past _ _ _ _ hsplit => ?_, known_start project grace⟩
      cases past <;> cases hsplit
    have hstep : ∀ move past rollout now, J past rollout now →
        let next := rollout.step E.recorded move now
        J (past ++ rollout.news E move now) next.1 next.2 := by
      rintro move past rollout now ⟨horderly, hknown⟩
      cases rollout with
      | passing pass rest => exact ⟨hknown.orderly horderly move, hknown.known move⟩
      | ended result =>
          simp only [news, List.append_nil]
          cases move <;> exact ⟨horderly, trivial⟩
    exact (history_rule hstep moves hstart).1

-- On an empty store, a service with a health check and another one that waits for it: the gate of
-- the second one polls when the first one has its container, and then the second one gets its own.
example :
    let checked : Service := { Sample.service with
      healthcheck := some ⟨["CMD", "true"], none, none, none⟩ }
    let patient : Service := { Sample.front with dependsOn := Dict.ofList [("web", .healthy)] }
    (history Drill.host.engine (List.replicate 5 (.poll 0))
        (start ⟨"demo", [patient, checked]⟩ none)
        ⟨.start Drill.host.engine (.fresh 0), .fresh, false⟩).filterMap
      (fun
        | .call service gate c => some (service.name, gate, c.request.verb)
        | _ => none) =
      [("web", none, .list), ("web", none, .create), ("web", none, .start),
        ("front", some "web", .list), ("front", some "web", .inspect),
        ("front", none, .list), ("front", none, .create), ("front", none, .start)] := by
  decide +kernel

end Rollout

end Fleet
