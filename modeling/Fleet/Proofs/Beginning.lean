import Fleet.Proofs.Stability

/-!
# Operations that can begin

The operations of a pass take turns in any order. So if one of them can make a request at
all, there is an order in which it makes it before any other operation has had a turn, and
a request that may have changed something stays in the log. Nothing that the other
operations come to later can be bound to happen with the store as it was.

The order is a strategy: that operation has all the turns until its request is carried out,
which may be some turns away, and after that anything goes.

## Main definitions

* `Changed`: Requests that may have changed something have been made.
* `Job.Pressing`: An operation about to make such a request.
* `Pass.MayChange`: The moments at which the strategy can be followed.

## Theorems

* `changed_keptByCalls`: Requests are not taken back.
* `Job.resume_pressing`: An operation about to make a request makes it or stays so.
* `Pass.not_inevitable_of_pressing`: That nothing is changed is not bound to happen.
-/

namespace Fleet

variable {ρ : Type}

/-! ### Requests that have been made -/

/-- More requests that may have changed something have been made than some before. -/
structure Changed (H : Host ρ) (before : List Request) (w : ρ) : Prop where
  peaceful : H.peaceful w
  more : before.length < (H.store w).mutations.length

/-- A request that may change something is entered among those that may have. -/
theorem Store.mutations_of_mutation {q : Request} (hq : q.isMutation = true) (s : Store) :
    (s.call q).2.mutations = s.mutations ++ [q] := by
  rw [mutations, log_call, List.filter_append, List.filter_cons_of_pos hq, List.filter_nil,
    mutations]

section Changed

variable {H : Host ρ} {before : List Request}

/-- Requests are not taken back. -/
theorem changed_keptByCalls : KeptByCalls H.engine (Changed H before) := by
  intro q w h
  rcases H.call_peaceful q w h.peaceful with ⟨hpeaceful, _, hstore⟩
  refine ⟨hpeaceful, ?_⟩
  have hmore := h.more
  rw [hstore]
  cases hq : q.isMutation with
  | false =>
      rw [Store.mutations_of_looking hq]
      exact hmore
  | true =>
      rw [Store.mutations_of_mutation hq, List.length_append]
      omega

theorem changed_of_call {w : ρ} (hpeaceful : H.peaceful w)
    (hsame : (H.store w).mutations = before) {q : Request} (hq : q.isMutation = true) :
    Changed H before (H.engine.call q w).2 := by
  rcases H.call_peaceful q w hpeaceful with ⟨hpeaceful', _, hstore⟩
  refine ⟨hpeaceful', ?_⟩
  rw [hstore, Store.mutations_of_mutation hq, List.length_append, hsame]
  exact Nat.lt_succ_self _

/-! ### Operations about to make a request -/

/-- An operation about to make a request that may change something. -/
inductive Job.Pressing : Job → Prop
  -- It has not begun.
  | fresh (op : Operation) (step : Step) (rest : List Step) : op.steps = .ok (step :: rest) →
    (∀ created, (step.request created).isMutation = true) → Pressing ⟨op, .fresh⟩
  -- It gives up some turns before the request.
  | pausing (op : Operation) (created : String) (q : Request) (turns : Nat) (rest : List Step) :
    q.isMutation = true → Pressing ⟨op, .underway created q (.pausing turns) rest⟩

/-- A request on its way is carried out, or gives up a turn. -/
theorem Stand.takeOn_pressing {w : ρ} (hpeaceful : H.peaceful w)
    (hsame : (H.store w).mutations = before) (created : String) {q : Request}
    (hq : q.isMutation = true) {errand : Errand q.Answer} (howes : errand.owes = 1)
    (rest : List Step) :
    Changed H before (takeOn H.engine created q errand rest w).2 ∨
      ∃ turns, takeOn H.engine created q errand rest w =
        (.yielded (underway created q (.pausing turns) rest), w) := by
  have hchanged : Changed H before (H.engine.call q w).2 := changed_of_call hpeaceful hsame hq
  rcases Errand.resume_cases H.engine q errand w with ⟨_, heq⟩ | ⟨turns, _, _, heq⟩ |
    ⟨answer, rfl, _⟩ | ⟨answer, rfl, _⟩
  · left
    rw [takeOn, heq]
    rcases Errand.issue_cases H.engine q w with hissue | hissue
    · rw [hissue]
      exact hchanged
    · rw [hissue]
      cases (H.engine.call q w).1 with
      | error cause => exact hchanged
      | ok answer => exact takeSteps_kept changed_keptByCalls rest _ hchanged
  · right
    rw [takeOn, heq]
    exact ⟨turns, rfl⟩
  · cases howes
  · cases howes

/-- A turn of an operation about to make a request makes it, or leaves the operation about to. -/
theorem Job.resume_pressing {job : Job} (h : job.Pressing) {site : Site ρ}
    (hpeaceful : H.peaceful site.world) (hsame : (H.store site.world).mutations = before) :
    Changed H before (job.resume H.engine site).2.world ∨
      ∃ job', (job.resume H.engine site).1 = .yielded job' ∧ job'.Pressing ∧
        (job.resume H.engine site).2.world = site.world := by
  have hconclude : ∀ (op : Operation) (s : Site ρ) (created : String) (q : Request)
      (errand : Errand q.Answer) (rest : List Step), q.isMutation = true → errand.owes = 1 →
      s.world = site.world →
      Changed H before (conclude op s (Stand.takeOn H.engine created q errand rest s.world)).2.world
        ∨ ∃ job', (conclude op s (Stand.takeOn H.engine created q errand rest s.world)).1 =
          .yielded job' ∧ job'.Pressing ∧
          (conclude op s (Stand.takeOn H.engine created q errand rest s.world)).2.world =
            site.world := by
    intro op s created q errand rest hq howes hworld
    rw [hworld]
    rcases Stand.takeOn_pressing hpeaceful hsame created hq howes rest with hchanged |
      ⟨turns, heq⟩
    · exact Or.inl (conclude_kept op s hchanged)
    · rw [heq]
      exact Or.inr ⟨_, rfl, .pausing op created q turns rest hq, rfl⟩
  cases h with
  | fresh op step rest hsteps hmutation =>
      simp only [resume, hsteps, Stand.takeSteps_cons]
      exact hconclude op _ "" (step.request "") .due rest (hmutation "") rfl rfl
  | pausing op created q turns rest hq =>
      simp only [resume]
      exact hconclude op site created q (.pausing turns) rest hq rfl rfl

end Changed

/-! ### The strategy -/

namespace Group

variable {σ W : Type}

/-- A task that yields while nothing is cancelled stands in the queue again. -/
theorem poll_of_yielded {C : Conduct σ W} {g : Group σ} {w w' : W} {place : Nat} {slot : Slot σ}
    {task : σ} (hslot : g.ready[place]? = some slot)
    (hturn : guarded C.stopped C.resume slot.started slot.task ⟨g.tripped, w⟩ =
      (.yielded task, ⟨g.tripped, w'⟩))
    (hgoing : C.stopped ⟨g.tripped, w'⟩ = false) :
    (g.poll C place w).2 = w' ∧ (g.poll C place w).1.tripped = g.tripped ∧
      ∃ place' : Nat, (g.poll C place w).1.ready[place']? = some ⟨task, true⟩ := by
  have hpoll : g.poll C place w =
      ({ g with ready := g.ready.eraseIdx place ++ [⟨task, true⟩] }, w') := by
    simp only [poll, hslot, hturn, settle, heed, hgoing, Bool.false_eq_true, if_false]
  rw [hpoll]
  exact ⟨rfl, rfl, _, List.getElem?_concat_length⟩

end Group

namespace Pass

variable {H : Host ρ} {before : List Request}

/-- A moment of the strategy: requests that may have changed something have been made, or an
    operation is about to make one. -/
def MayChange (H : Host ρ) (before : List Request) (pass : Pass) (site : Site ρ) : Prop :=
  ∃ jobs, pass.stage = afterJobs jobs ∧ (Changed H before site.world ∨
    H.peaceful site.world ∧ (H.store site.world).mutations = before ∧ jobs.tripped = false ∧
      ∃ (place : Nat) (slot : Slot Job), jobs.ready[place]? = some slot ∧ slot.task.Pressing)

/-- A turn of the operation about to make a request keeps to the strategy. -/
theorem mayChange_poll {jobs : Group Job} {site : Site ρ} {place : Nat} {slot : Slot Job}
    (hpeaceful : H.peaceful site.world) (hsame : (H.store site.world).mutations = before)
    (htripped : jobs.tripped = false) (hslot : jobs.ready[place]? = some slot)
    (hpressing : slot.task.Pressing) :
    let next := jobs.poll (Job.conduct H.engine) place site
    Changed H before next.2.world ∨
      H.peaceful next.2.world ∧ (H.store next.2.world).mutations = before ∧
        next.1.tripped = false ∧
        ∃ (place : Nat) (slot : Slot Job), next.1.ready[place]? = some slot ∧
          slot.task.Pressing := by
  intro next
  let C := Job.conduct H.engine
  let turn := C.resume slot.task ⟨jobs.tripped, site⟩
  have hworld : next.2 = (guarded C.stopped C.resume slot.started slot.task
      ⟨jobs.tripped, site⟩).2.world := by
    rcases Group.poll_of_getElem? hslot C site with ⟨_, _, _, _, _, hworld⟩
    exact hworld
  have hgoing : C.stopped ⟨jobs.tripped, site⟩ = false := by
    rw [Conduct.stopped, htripped, Bool.false_or]
    exact H.not_cancelled _ hpeaceful
  have hresume := Job.resume_pressing hpressing hpeaceful hsame
  rcases Group.guarded_cases C.stopped C.resume slot.started slot.task ⟨jobs.tripped, site⟩ with
    heq | ⟨_, hstopped⟩ | ⟨heq, hstopped⟩
  · rcases hresume with hchanged | ⟨job', hyields, hpressing', hsite⟩
    · left
      rw [hworld, heq]
      exact hchanged
    · right
      have hturn : guarded C.stopped C.resume slot.started slot.task ⟨jobs.tripped, site⟩ =
          (.yielded job', ⟨jobs.tripped, (slot.task.resume H.engine site).2⟩) := by
        rw [heq, ← hyields]
        rfl
      have hgoing' : C.stopped ⟨jobs.tripped, (slot.task.resume H.engine site).2⟩ = false := by
        rw [Conduct.stopped, htripped, Bool.false_or]
        exact H.not_cancelled _ (hsite ▸ hpeaceful)
      rcases Group.poll_of_yielded hslot hturn hgoing' with ⟨hafter, htripped', place', hplace⟩
      have hsite' : next.2.world = site.world := (congrArg Site.world hafter).trans hsite
      rw [hsite']
      exact ⟨hpeaceful, hsame, htripped'.trans htripped, place', _, hplace, hpressing'⟩
  · rw [hgoing] at hstopped
    cases hstopped
  · rcases hresume with hchanged | ⟨_, _, _, hsite⟩
    · left
      rw [hworld, heq]
      exact hchanged
    · -- A turn that only gives way is not cut short while nothing is cancelled.
      have hgoing' : C.stopped (C.resume slot.task ⟨jobs.tripped, site⟩).2 = false := by
        change (jobs.tripped || H.engine.cancelled (slot.task.resume H.engine site).2.world) = false
        rw [htripped, Bool.false_or]
        exact H.not_cancelled _ (hsite ▸ hpeaceful)
      rw [hgoing'] at hstopped
      cases hstopped

/-- The strategy can be followed to the end of the pass. -/
theorem mayChange_step {pass : Pass} {site : Site ρ} (h : MayChange H before pass site)
    (hresult : pass.result? = none) :
    ∃ move, pass.Enabled move ∧
      MayChange H before (pass.step H.engine move site).1 (pass.step H.engine move site).2 := by
  rcases pass with ⟨project, service, grace, marks, stage⟩
  rcases h with ⟨jobs, hstage, h⟩
  simp only at hstage
  have hover : jobs.isOver = false := by
    cases hover : jobs.isOver with
    | false => rfl
    | true =>
        rw [hstage, afterJobs_of_over hover] at hresult
        cases hresult
  have hworking : stage = .working jobs := hstage.trans (afterJobs_of_going hover)
  subst hworking
  rcases h with hchanged | ⟨hpeaceful, hsame, htripped, place, slot, hslot, hpressing⟩
  · rcases Group.exists_enabled hover with ⟨move, hmove⟩
    refine ⟨move, hmove, _, rfl, Or.inl (step_kept changed_keptByCalls move (fun hcancel => ?_)
      hchanged)⟩
    rw [hcancel] at hmove
    exact hmove.elim
  · refine ⟨.poll place, (List.getElem?_eq_some_iff.mp hslot).1, _, rfl, ?_⟩
    exact mayChange_poll hpeaceful hsame htripped hslot hpressing

/-- If an operation can begin, it is not bound to happen that nothing is changed. -/
theorem not_inevitable_of_pressing {P : Except Error Unit → Site ρ → Prop} {pass : Pass}
    {jobs : Group Job} {site : Site ρ} (hpeaceful : H.peaceful site.world)
    (hsame : (H.store site.world).mutations = before) (htripped : jobs.tripped = false)
    {place : Nat} {slot : Slot Job} (hslot : jobs.ready[place]? = some slot)
    (hpressing : slot.task.Pressing)
    (hP : ∀ result after, P result after → (H.store after.world).mutations = before) :
    ¬Inevitable H.engine P { pass with stage := afterJobs jobs } site := by
  refine Inevitable.not_of_strategy (J := MayChange H before) (fun _ _ h => mayChange_step h) ?_
    ⟨jobs, rfl, Or.inr ⟨hpeaceful, hsame, htripped, place, slot, hslot, hpressing⟩⟩
  rintro ⟨project, service, grace, marks, stage⟩ site result ⟨jobs, hstage, h⟩ hresult hend
  rcases h with hchanged | ⟨_, _, _, place, slot, hslot, _⟩
  · have hmore := hchanged.more
    rw [hP result site hend] at hmore
    exact Nat.lt_irrefl _ hmore
  · -- An operation is waiting for its turn, so the pass is not at its end.
    have hready : jobs.ready ≠ [] := by
      intro hnil
      rw [hnil] at hslot
      cases hslot
    simp only at hstage
    rw [result?, hstage] at hresult
    cases hover : jobs.isOver with
    | false =>
        rw [afterJobs_of_going hover] at hresult
        cases hresult
    | true =>
        rw [Group.isOver, Bool.and_eq_true, List.isEmpty_iff] at hover
        exact hready hover.1

end Pass

end Fleet
