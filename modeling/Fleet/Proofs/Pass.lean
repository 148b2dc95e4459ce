import Fleet.Proofs.Assignment
import Fleet.Proofs.Gate

/-!
# Passes under every order of moves

A pass is followed from its beginning through any list of moves: turns of its tasks
in any order, arrivals, and the end of the work at any moment. Until the plan is
made nothing happens to the containers; from then on the ledger says what has
happened. `Pass.Reached` puts the two together, and every move keeps it
(`reached_step`, `reached_play`).

The order in which a pass by itself makes its moves is one of those orders
(`exists_play_of_run`).

## Main definitions

* `Pass.play`: A pass after a list of moves.
* `Intact`: Nothing has happened to the containers.
* `Pass.Reached`: What is known at each stage.

## Theorems

* `exists_play_of_run`: What a pass does by itself comes of a list of moves.
* `afterListing_reached`: What the listing leads to.
* `reached_step`: Every move keeps what is known.
* `reached_play`: So does every list of moves.
* `accounted_of_reached`: At every moment the containers are accounted for.
-/

namespace Fleet

variable {ρ : Type}

namespace Pass

/-- A pass after a list of moves, with its site. -/
def play (E : Engine ρ) (moves : List Move) (pass : Pass) (site : Site ρ) : Pass × Site ρ :=
  moves.foldl (fun s move => s.1.step E move s.2) (pass, site)

theorem play_append (E : Engine ρ) (first rest : List Move) (pass : Pass) (site : Site ρ) :
    play E (first ++ rest) pass site =
      play E rest (play E first pass site).1 (play E first pass site).2 :=
  List.foldl_append

theorem play_concat (E : Engine ρ) (moves : List Move) (move : Move) (pass : Pass)
    (site : Site ρ) : play E (moves ++ [move]) pass site =
      (play E moves pass site).1.step E move (play E moves pass site).2 :=
  play_append E moves [move] pass site

end Pass

theorem exists_moves_of_drive {S : Type} {next? : S → Option Move} {step : Move → S → S}
    {turns : Nat} {s s' : S} (h : drive next? step turns s = some s') :
    ∃ moves : List Move, moves.foldl (fun s move => step move s) s = s' := by
  induction turns generalizing s with
  | zero =>
      cases hnext : next? s with
      | none =>
          simp only [drive, hnext] at h
          exact ⟨[], Option.some.inj h⟩
      | some move =>
          unfold drive at h
          rw [hnext] at h
          cases h
  | succ turns ih =>
      cases hnext : next? s with
      | none =>
          simp only [drive, hnext] at h
          exact ⟨[], Option.some.inj h⟩
      | some move =>
          unfold drive at h
          rw [hnext] at h
          rcases ih h with ⟨moves, hmoves⟩
          exact ⟨move :: moves, hmoves⟩

namespace Pass

/-- What a pass does by itself comes of a list of moves. -/
theorem exists_play_of_run {E : Engine ρ} {turns : Nat} {pass : Pass} {site site' : Site ρ}
    {result : Except Error Unit} {marks : Marks}
    (h : pass.run E turns site = some (result, marks, site')) :
    ∃ moves, (play E moves pass { site with recreated := false }).1.result? = some result ∧
      (play E moves pass { site with recreated := false }).2 = site' := by
  simp only [run, bind, Option.bind_eq_some_iff] at h
  rcases h with ⟨⟨pass', site''⟩, hdrive, result', hresult, heq⟩
  rcases exists_moves_of_drive hdrive with ⟨moves, hmoves⟩
  simp only [pure, Option.some.injEq, Prod.mk.injEq] at heq
  rcases heq with ⟨rfl, -, rfl⟩
  refine ⟨moves, ?_, ?_⟩
  · rw [play, hmoves]
    exact hresult
  · rw [play, hmoves]

end Pass

/-! ### Looking -/

/-- Nothing has happened to the containers. -/
structure Intact (H : Host ρ) (b : Brief) (fair : Prop) (cs : List Container) (w : ρ) : Prop where
  sound : Sound H b fair w
  containers : (H.store w).containers = cs
  trail : ∀ s ∈ H.trail w, s.containers = cs

variable {H : Host ρ} {b : Brief} {fair : Prop} {cs : List Container} {w : ρ}

theorem effect_of_looking {q : Request} (hq : q.isMutation = false) (birth : Health)
    (fresh : String) (cs : List Container) : q.effect birth fresh cs = cs := by
  cases q with
  | list _ => rfl
  | inspect id => exact changeFirst_self id cs
  | _ => cases hq

theorem intact_keptByLooking : KeptByLooking H.engine (Intact H b fair cs) := by
  intro q w hq h
  have hcontainers : (H.store (H.engine.call q w).2).containers = cs := by
    rcases (h.sound.call q).2 with ⟨_, _, hsame, _⟩ | ⟨_, fresh, _, _, _, heffect, _⟩
    · rw [hsame, h.containers]
    · rw [heffect, effect_of_looking hq, h.containers]
  refine ⟨(h.sound.call q).1, hcontainers, ?_⟩
  intro s hs
  rcases H.call_trail q w s hs with hs | rfl
  · exact h.trail s hs
  · exact hcontainers

theorem Intact.cancel (h : Intact H b fair cs w) (hunfair : ¬fair) :
    Intact H b fair cs (H.engine.cancel w) := by
  refine ⟨h.sound.cancel hunfair, ?_, ?_⟩
  · rw [(H.cancel_calm w h.sound.calm).2]
    exact h.containers
  · exact fun s hs => h.trail s (H.cancel_trail w s hs)

/-- What an answer to a listing is. -/
def Lists (fair : Prop) (filter : LabelFilter) (cs : List Container)
    (answer : Except RuntimeError (List Summary)) : Prop :=
  (∀ l, answer = .ok l → l = (cs.filter fun c => filter.accepts c.labels).map (·.summary)) ∧
    (fair → ∃ l, answer = .ok l)

theorem Intact.lists (h : Intact H b fair cs w) (filter : LabelFilter) :
    Lists fair filter cs (H.engine.call (.list filter) w).1 := by
  refine ⟨?_, ?_⟩
  · intro l hl
    rcases H.call_calm (.list filter) w h.sound.calm with ⟨_, pending, hanswer, _⟩
    rw [hanswer] at hl
    rw [Store.call_list hl]
    exact congrArg (fun cs : List Container =>
      (cs.filter fun c => filter.accepts c.labels).map (·.summary)) h.containers
  · intro hfair
    rcases (h.sound.call (.list filter)).2 with ⟨_, _, _, hfault⟩ | ⟨answer, _, hok, _⟩
    · exact absurd trivial (hfault hfair)
    · exact ⟨answer, hok⟩

/-! ### Stages -/

namespace Pass

/-- What is known of a pass that began on the store given, at each of its stages. -/
def Reached (H : Host ρ) (fair : Prop) (s : Store) (pass : Pass) (site : Site ρ) : Prop :=
  match pass.stage with
  | .gating _ => Intact H (pass.brief s) fair s.containers site.world
  | .listing _ _ errand =>
    Intact H (pass.brief s) fair s.containers site.world ∧
      errand.Bears (Lists fair pass.filter s.containers)
  | .working jobs => ∃ plan, pass.planFor s.containers = .ok plan ∧
    Ledger H (pass.brief s) fair (pass.untouched s.containers)
      (pass.duties plan.missing s.containers) jobs.slots jobs.failure ⟨jobs.tripped, site⟩
  | .ended result =>
    (Intact H (pass.brief s) fair s.containers site.world ∧ ∃ error, result = .error error) ∨
    ∃ plan failure tripped, pass.planFor s.containers = .ok plan ∧
      Ledger H (pass.brief s) fair (pass.untouched s.containers)
        (pass.duties plan.missing s.containers) 0 failure ⟨tripped, site⟩ ∧
      (result = .ok () → failure = none)

variable {s : Store} {pass : Pass} {site : Site ρ}

/-- The duties of a pass can always be seen to; in fairness nobody may be in the way. -/
theorem fit_of_unfair (hunfair : ¬fair) (missing : List Nat) :
    Fit (pass.brief s) fair (pass.untouched s.containers) (pass.duties missing s.containers) where
  known _ hduty := found_le pass missing s.containers hduty
  steps hfair := absurd hfair hunfair
  clear hfair := absurd hfair hunfair

theorem afterJobs_reached {plan : Plan} {jobs : Group Job}
    (hplan : pass.planFor s.containers = .ok plan)
    (h : Ledger H (pass.brief s) fair (pass.untouched s.containers)
      (pass.duties plan.missing s.containers) jobs.slots jobs.failure ⟨jobs.tripped, site⟩) :
    Reached H fair s { pass with stage := afterJobs jobs } site := by
  unfold afterJobs
  cases hover : jobs.isOver with
  | false => exact ⟨plan, hplan, h⟩
  | true =>
      rw [(Group.slots_eq_zero_iff jobs).mpr hover] at h
      refine Or.inr ⟨plan, jobs.failure, jobs.tripped, hplan, h, ?_⟩
      intro hok
      simp only [Group.outcome] at hok
      cases hfailure : jobs.failure with
      | none => rfl
      | some error =>
          rw [hfailure] at hok
          cases hok

theorem afterListing_eq (pass : Pass) (s : Store) :
    pass.afterListing ((pass.listed s.containers).map (·.summary)) =
      match pass.planFor s.containers with
      | .error cause => .ended (.error (.number cause))
      | .ok plan => afterJobs (.ofTasks (((pass.duties plan.missing s.containers).map
          (·.operation (pass.brief s))).map Job.fresh)) := by
  have hoperations : pass.operations ((pass.listed s.containers).map (·.summary)) =
      (pass.planFor s.containers).map fun plan => (pass.duties plan.missing s.containers).map
        (·.operation (pass.brief s)) := by
    rw [operations, ← planFor]
    cases hplan : pass.planFor s.containers with
    | error cause => rfl
    | ok plan => exact congrArg Except.ok (operations_eq s hplan)
  rw [afterListing, hoperations]
  cases pass.planFor s.containers <;> rfl

theorem ledger_of_intact (plan : Plan)
    (h : Intact H (pass.brief s) fair s.containers site.world) :
    Ledger H (pass.brief s) fair (pass.untouched s.containers)
      (pass.duties plan.missing s.containers) (Group.ofTasks (((pass.duties plan.missing
        s.containers).map (·.operation (pass.brief s))).map Job.fresh)).slots none
      ⟨false, site⟩ := by
  have hstock := stock_eq pass plan.missing s.containers
  refine Ledger.opening (Multiset.map_coe _ _).symm h.sound ?_ ?_
  · intro s' hs'
    exact accounted_opening (by rw [h.trail s' hs']; exact hstock)
  · rw [h.containers]
    exact hstock

theorem afterListing_reached (h : Intact H (pass.brief s) fair s.containers site.world) :
    Reached H fair s { pass with
      stage := pass.afterListing ((pass.listed s.containers).map (·.summary)) } site := by
  rw [afterListing_eq]
  cases hplan : pass.planFor s.containers with
  | error cause => exact Or.inl ⟨h, _, rfl⟩
  | ok plan => exact afterJobs_reached hplan (ledger_of_intact plan h)

/-- A turn of the listing, its answer not yet looked at. -/
def listingTurn (E : Engine ρ) (pass : Pass) (errand : Errand (List Summary)) (w : ρ) :
    Turn (Errand (List Summary)) (Except Error (Except RuntimeError (List Summary))) × ρ :=
  ((Errand.resume E (.list pass.filter) errand w).1.map id .ok,
    (Errand.resume E (.list pass.filter) errand w).2)

/-- The stage after a turn of the listing. -/
def heard (pass : Pass) :
    Turn (Errand (List Summary)) (Except Error (Except RuntimeError (List Summary))) → Stage
  | .yielded errand => .listing true false errand
  | .asleep errand => .listing true true errand
  | .finished (.error error) => .ended (.error error)
  | .finished (.ok (.error cause)) => .ended (.error (.runtime cause))
  | .finished (.ok (.ok containers)) => pass.afterListing containers

theorem takeListing_eq (E : Engine ρ) (pass : Pass) (started : Bool)
    (errand : Errand (List Summary)) (w : ρ) :
    pass.takeListing E started errand w =
      (pass.heard (guarded E.cancelled (listingTurn E pass) started errand w).1,
        (guarded E.cancelled (listingTurn E pass) started errand w).2) := by
  simp only [takeListing]
  generalize hguarded : guarded E.cancelled _ started errand w = next
  have hturn : guarded E.cancelled (listingTurn E pass) started errand w = next := hguarded
  rw [hturn]
  rcases next with ⟨turn, w'⟩
  cases turn with
  | finished result =>
      cases result with
      | error error => rfl
      | ok answer => cases answer <;> rfl
  | _ => rfl

/-- A turn of the listing leaves the containers alone and leads on: to further turns, to an error
    that is not there in fairness, or to what the pass makes of the containers listed. -/
theorem takeListing_cases (started : Bool) {errand : Errand (List Summary)}
    (h : Intact H (pass.brief s) fair s.containers w)
    (hbears : errand.Bears (Lists fair pass.filter s.containers)) :
    let next := pass.takeListing H.engine started errand w
    Intact H (pass.brief s) fair s.containers next.2 ∧
      ((∃ waiting errand', next.1 = .listing true waiting errand' ∧
          errand'.Bears (Lists fair pass.filter s.containers)) ∨
        (¬fair ∧ ∃ error, next.1 = .ended (.error error)) ∨
        next.1 = pass.afterListing ((pass.listed s.containers).map (·.summary))) := by
  have hintact := Errand.resume_keeps intact_keptByLooking (q := .list pass.filter) rfl errand h
  have hbrings := Errand.resume_brings H.engine (.list pass.filter) hbears (h.lists pass.filter)
  -- In fairness nobody ends the work, so the listing is not dropped.
  have hdropped : ∀ w, Intact H (pass.brief s) fair s.containers w →
      H.engine.cancelled w = true → ¬fair := by
    intro w hw hcancelled hfair
    rw [H.not_cancelled w (hw.sound.peace hfair).1] at hcancelled
    cases hcancelled
  rw [takeListing_eq]
  rcases Group.guarded_cases H.engine.cancelled (listingTurn H.engine pass) started errand w with
    heq | ⟨heq, hcancelled⟩ | ⟨heq, hcancelled⟩
  · rw [heq, listingTurn]
    rcases hresult : Errand.resume H.engine (.list pass.filter) errand w with ⟨turn, w'⟩
    rw [hresult] at hintact hbrings
    cases turn with
    | yielded errand' => exact ⟨hintact, Or.inl ⟨false, errand', rfl, hbrings⟩⟩
    | asleep errand' => exact ⟨hintact, Or.inl ⟨true, errand', rfl, hbrings⟩⟩
    | finished answer =>
        cases answer with
        | error cause =>
            refine ⟨hintact, Or.inr (Or.inl ⟨fun hfair => ?_, _, rfl⟩)⟩
            rcases hbrings.2 hfair with ⟨l, hl⟩
            cases hl
        | ok l =>
            refine ⟨hintact, Or.inr (Or.inr ?_)⟩
            rw [hbrings.1 l rfl]
            rfl
  · rw [heq]
    exact ⟨h, Or.inr (Or.inl ⟨hdropped w h hcancelled, _, rfl⟩)⟩
  · rw [heq]
    exact ⟨hintact, Or.inr (Or.inl ⟨hdropped _ hintact hcancelled, _, rfl⟩)⟩

/-! ### Moves -/

theorem afterGates_reached (gates : Group Gate.Watch)
    (h : Intact H (pass.brief s) fair s.containers site.world) :
    Reached H fair s { pass with stage := afterGates gates } site := by
  unfold afterGates
  cases gates.isOver with
  | false => exact h
  | true =>
      cases gates.outcome with
      | ok => exact ⟨h, trivial⟩
      | error error => exact Or.inl ⟨h, error, rfl⟩

theorem start_reached (project : Project) (service : Service) (grace : Option Nat) (marks : Marks)
    (h : Intact H ((start project service grace marks).brief s) fair s.containers site.world) :
    Reached H fair s (start project service grace marks) site :=
  afterGates_reached (.ofTasks (service.healthDependencies.map .fresh)) h

/-- Every move keeps what is known of a pass. -/
theorem reached_step (hfit : ∀ plan, pass.planFor s.containers = .ok plan → Fit (pass.brief s) fair
      (pass.untouched s.containers) (pass.duties plan.missing s.containers))
    (move : Move) (hmove : move = .cancel → ¬fair) (h : Reached H fair s pass site) :
    Reached H fair s (pass.step H.engine move site).1 (pass.step H.engine move site).2 := by
  rcases pass with ⟨project, service, grace, marks, stage⟩
  -- Gates and listing only look. From then on it is the ledger that is kept.
  cases stage with
  | gating gates =>
      have hkeeps := Gate.step_keeps intact_keptByLooking project.name move
        (fun hcancel _ hw => hw.cancel (hmove hcancel)) gates h
      exact afterGates_reached _ hkeeps
  | listing started waiting errand =>
      cases move with
      | poll place =>
          simp only [step]
          rcases takeListing_cases started h.1 h.2 with
            ⟨hintact, ⟨waiting', errand', heq, hbears⟩ | ⟨_, error, heq⟩ | heq⟩
          · rw [heq]
            exact ⟨hintact, hbears⟩
          · rw [heq]
            exact Or.inl ⟨hintact, error, rfl⟩
          · rw [heq]
            exact afterListing_reached hintact
      | fire => exact ⟨h.1, Errand.bears_wake.mpr h.2⟩
      | cancel => exact ⟨h.1.cancel (hmove rfl), h.2⟩
  | working jobs =>
      rcases h with ⟨plan, hplan, hledger⟩
      exact afterJobs_reached hplan (ledger_step (hfit plan hplan) move hmove hledger)
  | ended result =>
      cases move with
      | poll _ => exact h
      | fire => exact h
      | cancel =>
          have hunfair := hmove rfl
          rcases h with ⟨hintact, herror⟩ | ⟨plan, failure, tripped, hplan, hledger, hok⟩
          · exact Or.inl ⟨hintact.cancel hunfair, herror⟩
          · exact Or.inr ⟨plan, failure, tripped, hplan,
              ledger_keptByCancelling hunfair _ _ _ hledger, hok⟩

/-- Whatever the moves, and whatever fails, what is known of a pass stays known. -/
theorem reached_play (hunfair : ¬fair) (moves : List Move) (h : Reached H fair s pass site) :
    Reached H fair s (play H.engine moves pass site).1 (play H.engine moves pass site).2 := by
  let Inv := fun next : Pass × Site ρ => Reached H fair s next.1 next.2
  refine foldl_invariant (?_ : ∀ move next, Inv next → Inv (next.1.step H.engine move next.2))
    moves h
  intro move next hnext
  exact reached_step (fun plan _ => fit_of_unfair hunfair plan.missing) move (fun _ => hunfair)
    hnext

/-- At every moment the containers are those of the beginning, or accounted for by the duties of the
    plan. -/
theorem accounted_of_reached (h : Reached H fair s pass site) :
    ∀ t ∈ H.trail site.world ++ [H.store site.world], t.containers = s.containers ∨
      ∃ plan, pass.planFor s.containers = .ok plan ∧
        Accounted (pass.brief s) (pass.untouched s.containers)
          (pass.duties plan.missing s.containers) t.containers := by
  intro t ht
  have hintact : Intact H (pass.brief s) fair s.containers site.world →
      t.containers = s.containers := by
    intro hintact
    rcases List.mem_append.mp ht with ht | ht
    · exact hintact.trail t ht
    · rw [List.mem_singleton.mp ht]
      exact hintact.containers
  have hledger : ∀ {plan : Plan} {slots : Multiset (Slot Job)} {failure : Option Error}
      {tripped : Bool}, Ledger H (pass.brief s) fair (pass.untouched s.containers)
        (pass.duties plan.missing s.containers) slots failure ⟨tripped, site⟩ →
      Accounted (pass.brief s) (pass.untouched s.containers)
        (pass.duties plan.missing s.containers) t.containers := by
    intro plan slots failure tripped hledger
    rcases List.mem_append.mp ht with ht | ht
    · exact hledger.trail t ht
    · rw [List.mem_singleton.mp ht]
      exact hledger.accounted
  rcases pass with ⟨project, service, grace, marks, stage⟩
  cases stage with
  | gating gates => exact Or.inl (hintact h)
  | listing started waiting errand => exact Or.inl (hintact h.1)
  | working jobs =>
      rcases h with ⟨plan, hplan, hbooks⟩
      exact Or.inr ⟨plan, hplan, hledger hbooks⟩
  | ended result =>
      rcases h with ⟨h, _⟩ | ⟨plan, failure, tripped, hplan, hbooks, _⟩
      · exact Or.inl (hintact h)
      · exact Or.inr ⟨plan, hplan, hledger hbooks⟩

theorem step_fields (E : Engine ρ) (move : Move) (pass : Pass) (site : Site ρ) :
    (pass.step E move site).1 = { pass with stage := (pass.step E move site).1.stage } := by
  rcases pass with ⟨project, service, grace, marks, stage⟩
  cases stage with
  | gating gates => rfl
  | listing started waiting errand => cases move <;> rfl
  | working jobs => rfl
  | ended result => cases move <;> rfl

theorem play_fields (E : Engine ρ) (moves : List Move) (pass : Pass) (site : Site ρ) :
    (play E moves pass site).1 = { pass with stage := (play E moves pass site).1.stage } := by
  induction moves generalizing pass site with
  | nil => rfl
  | cons move moves ih =>
      have hrest := ih (pass.step E move site).1 (pass.step E move site).2
      exact hrest.trans (congrArg (fun next : Pass => { next with
        stage := (play E (move :: moves) pass site).1.stage }) (step_fields E move pass site))

end Pass

end Fleet
