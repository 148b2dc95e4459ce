import Fleet.Proofs.Gate
import Fleet.Proofs.Inevitable
import Fleet.Proofs.Pass

/-!
# What holds throughout a pass

Whatever every request keeps, and the end of the work too, is kept by a pass, at all of
its stages and under every order of moves. Nothing has to be known for this about which
requests a pass makes.

## Main definitions

* `KeptByCalls`: Every request keeps a fact.

## Theorems

* `Pass.step_keeps`: What looking keeps, every move keeps as long as no plan is carried out.
* `Pass.step_kept`: What every request keeps, every move keeps.
* `Pass.play_kept`: So does every list of moves.
* `Pass.Inevitable.with_kept`: And it holds at an end that is bound to come.
* `Pass.play_stage`: What every move keeps of the stage, every list of moves keeps.
* `Pass.Inevitable.exists_play`: Such an end does come after some moves.
-/

namespace Fleet

variable {ρ : Type}

/-- Every request keeps a fact about the world. -/
def KeptByCalls (E : Engine ρ) (P : ρ → Prop) : Prop := ∀ q w, P w → P (E.call q w).2

variable {E : Engine ρ} {P : ρ → Prop} {w : ρ}

theorem KeptByCalls.keptByLooking (hP : KeptByCalls E P) : KeptByLooking E P :=
  fun q w _ h => hP q w h

theorem Errand.resume_kept (hP : KeptByCalls E P) (q : Request) (errand : Errand q.Answer)
    (h : P w) : P (Errand.resume E q errand w).2 := by
  rcases Errand.resume_world E q errand w with heq | heq
  · rw [heq]
    exact h
  · rw [heq]
    exact hP q w h

/-- What is so of the answer to a request once it has been carried out is so of what its errand
    brings. -/
theorem Errand.brings_of_call {q : Request} {A : Except RuntimeError q.Answer → ρ → Prop}
    (hcall : ∀ w, A (E.call q w).1 (E.call q w).2) {errand : Errand q.Answer}
    (hbears : errand.Bears (A · w)) :
    let next := Errand.resume E q errand w
    Errand.Brings (A · next.2) next.1 := by
  rcases Errand.resume_cases E q errand w with ⟨_, heq⟩ | ⟨turns, _, _, heq⟩ |
    ⟨answer, rfl, heq⟩ | ⟨answer, rfl, heq⟩
  · rw [heq]
    rcases Errand.issue_cases E q w with hissue | hissue
    · rw [hissue]
      exact hcall w
    · rw [hissue]
      exact hcall w
  · rw [heq]
    exact trivial
  · rw [heq]
    exact hbears
  · rw [heq]
    exact hbears

namespace Stand

theorem takeSteps_kept (hP : KeptByCalls E P) (steps : List Step) (created : String) (h : P w) :
    P (takeSteps E created steps w).2 := by
  induction steps generalizing created w with
  | nil => exact h
  | cons step rest ih =>
      have hkept := Errand.resume_kept hP (step.request created) .due h
      rw [takeSteps]
      rcases hresult : Errand.resume E (step.request created) .due w with ⟨turn, w'⟩
      rw [hresult] at hkept
      cases turn with
      | finished answer =>
          cases answer with
          | error cause => exact hkept
          | ok answer => exact ih _ hkept
      | _ => exact hkept

theorem takeOn_kept (hP : KeptByCalls E P) (created : String) (q : Request)
    (errand : Errand q.Answer) (rest : List Step) (h : P w) :
    P (takeOn E created q errand rest w).2 := by
  have hkept := Errand.resume_kept hP q errand h
  rw [takeOn]
  rcases hresult : Errand.resume E q errand w with ⟨turn, w'⟩
  rw [hresult] at hkept
  cases turn with
  | finished answer =>
      cases answer with
      | error cause => exact hkept
      | ok answer => exact takeSteps_kept hP rest _ hkept
  | _ => exact hkept

end Stand

theorem Job.conclude_kept (op : Operation) (site : Site ρ)
    {result : Turn Stand (Except RuntimeError Unit) × ρ} (h : P result.2) :
    P (conclude op site result).2.world := by
  rcases result with ⟨turn, w'⟩
  cases turn with
  | finished answer =>
      cases answer with
      | error cause => exact h
      | ok =>
          simp only [conclude, Site.complete]
          split
          · exact h
          · exact h
  | _ => exact h

theorem Job.resume_kept (hP : KeptByCalls E P) (job : Job) {site : Site ρ} (h : P site.world) :
    P (job.resume E site).2.world := by
  rcases job with ⟨op, stand⟩
  cases stand with
  | underway created q errand rest =>
      exact conclude_kept op site (Stand.takeOn_kept hP created q errand rest h)
  | fresh =>
      simp only [Job.resume]
      cases op.steps with
      | error cause => exact h
      | ok steps => exact conclude_kept op _ (Stand.takeSteps_kept hP steps "" h)

namespace Pass

variable {pass : Pass} {site : Site ρ}

/-- What listing and inspecting keeps, a turn of the listing keeps. -/
theorem takeListing_keeps (hP : KeptByLooking E P) (started : Bool)
    (errand : Errand (List Summary)) (h : P w) :
    P (pass.takeListing E started errand w).2 := by
  have hkept := Errand.resume_keeps hP (q := .list pass.filter) rfl errand h
  rw [takeListing_eq]
  rcases Group.guarded_cases E.cancelled (listingTurn E pass) started errand w with
    heq | ⟨heq, _⟩ | ⟨heq, _⟩
  · rw [heq]
    exact hkept
  · rw [heq]
    exact h
  · rw [heq]
    exact hkept

/-- What listing and inspecting keeps, every move keeps as long as no plan is carried out, and so
    does the end of the work if it does. -/
theorem step_keeps (hP : KeptByLooking E P) (move : Move)
    (hcancel : move = .cancel → ∀ w, P w → P (E.cancel w))
    (hstage : ∀ jobs, pass.stage ≠ .working jobs) (h : P site.world) :
    P (pass.step E move site).2.world := by
  rcases pass with ⟨project, service, grace, marks, stage⟩
  cases stage with
  | gating gates => exact Gate.step_keeps hP project.name move hcancel gates h
  | listing started waiting errand =>
      cases move with
      | poll _ => exact takeListing_keeps hP started errand h
      | fire => exact h
      | cancel => exact hcancel rfl _ h
  | working jobs => exact absurd rfl (hstage jobs)
  | ended result =>
      cases move with
      | poll _ => exact h
      | fire => exact h
      | cancel => exact hcancel rfl _ h

/-- What every request keeps, every move keeps, and so does the end of the work if it does. -/
theorem step_kept (hP : KeptByCalls E P) (move : Move)
    (hcancel : move = .cancel → ∀ w, P w → P (E.cancel w)) (h : P site.world) :
    P (pass.step E move site).2.world := by
  rcases pass with ⟨project, service, grace, marks, stage⟩
  cases stage with
  | working jobs =>
      have hturn : Group.KeptByTurns (Job.conduct E) fun _ _ scope => P scope.world.world := by
        intro slot rest failure scope h
        have hkept := Job.resume_kept hP slot.task h
        rcases Group.guarded_cases (Job.conduct E).stopped (Job.conduct E).resume slot.started
          slot.task scope with heq | ⟨heq, _⟩ | ⟨heq, _⟩
        · rw [heq]
          exact hkept
        · rw [heq]
          exact h
        · rw [heq]
          exact hkept
      exact Group.step_invariant hturn (fun _ _ _ _ h => h) move
        (fun hmove _ _ _ h => hcancel hmove _ h) h
  | _ => exact step_keeps hP.keptByLooking move hcancel nofun h

/-- What every request and the end of the work keep holds after any moves. -/
theorem play_kept (hP : KeptByCalls E P) (hcancel : ∀ w, P w → P (E.cancel w))
    (moves : List Move) (h : P site.world) : P (play E moves pass site).2.world := by
  let Inv := fun next : Pass × Site ρ => P next.2.world
  refine foldl_invariant (?_ : ∀ move next, Inv next → Inv (next.1.step E move next.2)) moves h
  exact fun move next hnext => step_kept hP move (fun _ => hcancel) hnext

/-- What every move keeps of the stage, every list of moves keeps. -/
theorem play_stage (E : Engine ρ) (pass : Pass) (Inv : Stage → Site ρ → Prop)
    (hstep : ∀ move stage site, Inv stage site →
      let next := Pass.step E move { pass with stage } site
      Inv next.1.stage next.2) (moves : List Move) {site : Site ρ} (h : Inv pass.stage site) :
    let next := play E moves pass site
    Inv next.1.stage next.2 := by
  let Inv' := fun next : Pass × Site ρ =>
    next.1 = { pass with stage := next.1.stage } ∧ Inv next.1.stage next.2
  have hinv : Inv' (play E moves pass site) := by
    refine foldl_invariant (?_ : ∀ move next, Inv' next →
      Inv' (next.1.step E move next.2)) moves ⟨rfl, h⟩
    rintro move ⟨next, site⟩ ⟨hfields, hnext⟩
    refine ⟨?_, ?_⟩
    · exact (step_fields E move next site).trans (congrArg (fun p : Pass =>
        { p with stage := (step E move next site).1.stage }) hfields)
    · have hnext' := hstep move next.stage site hnext
      rw [← hfields] at hnext'
      exact hnext'
  exact hinv.2

/-- What every enabled move keeps holds at an end that is bound to come. -/
theorem Inevitable.with_invariant {Q : Except Error Unit → Site ρ → Prop}
    {Inv : Pass → Site ρ → Prop}
    (hstep : ∀ move pass site, pass.Enabled move → Inv pass site →
      Inv (pass.step E move site).1 (pass.step E move site).2)
    (hbound : Inevitable E Q pass site) (h : Inv pass site) :
    Inevitable E (fun result after => Q result after ∧ ∃ pass', Inv pass' after) pass site := by
  induction hbound with
  | ended result hresult hQ => exact .ended result hresult ⟨hQ, _, h⟩
  | later hmove _ ih =>
      exact .later hmove fun move henabled => ih move henabled (hstep move _ _ henabled h)

/-- What every request keeps holds at an end that is bound to come. -/
theorem Inevitable.with_kept {Q : Except Error Unit → Site ρ → Prop} (hP : KeptByCalls E P)
    (hbound : Inevitable E Q pass site) (h : P site.world) :
    Inevitable E (fun result after => Q result after ∧ P after.world) pass site := by
  have hstep : ∀ move (pass : Pass) (site : Site ρ), pass.Enabled move → P site.world →
      P (pass.step E move site).2.world := by
    intro move pass site henabled h
    refine step_kept hP move (fun hcancel => ?_) h
    rw [hcancel] at henabled
    exact absurd henabled (not_enabled_cancel _)
  refine (hbound.with_invariant hstep h).imp ?_
  rintro result after ⟨hQ, _, hafter⟩
  exact ⟨hQ, hafter⟩

/-- What is bound to happen happens after some moves. -/
theorem Inevitable.exists_play {Q : Except Error Unit → Site ρ → Prop}
    (hbound : Inevitable E Q pass site) : ∃ moves result,
      (play E moves pass site).1.result? = some result ∧ Q result (play E moves pass site).2 := by
  induction hbound with
  | ended result hresult hQ => exact ⟨[], result, hresult, hQ⟩
  | later hmove _ ih =>
      rcases hmove with ⟨move, henabled⟩
      rcases ih move henabled with ⟨moves, result, hresult, hQ⟩
      exact ⟨move :: moves, result, hresult, hQ⟩

end Pass

end Fleet
