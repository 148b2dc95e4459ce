import Fleet.Operation

/-!
# How an operation goes through its steps

A turn of an operation may carry out any number of requests, and stops wherever
the engine makes it wait: before a request, or between a request and its answer.
Statements about operations should not have to follow that.

The rule here asks for a fact that hangs on the id created so far, the steps
still to come and the world, and that each single request takes along. Such a
fact then holds wherever a turn stops (`takeSteps_comesTo`, `takeOn_comesTo`).
An operation that waits with a request not carried out stands before that step,
and one that waits for the answer stands behind it, although its own record
says the same in both cases; `Stand.Shows` is what makes the difference.

Failed requests are kept apart, with a second fact that may say what is known
after one of them.

## Main definitions

* `Errand.isDue`: A request that has not been carried out.
* `Stand.Advances`: Each request takes a fact along.
* `Stand.Shows`: A fact, as a waiting operation shows it.
* `Stand.ComesTo`: A fact at the end of a turn.

## Theorems

* `resume_of_isDue`: What a turn of an errand does.
* `takeSteps_comesTo`: From a fact before the steps to one after the turn.
* `takeOn_comesTo`: The same for a turn that goes on with a request.
-/

namespace Fleet

variable {ρ α : Type}

namespace Errand

/-- The request has not been carried out. -/
def isDue : Errand α → Prop
  | due | pausing _ => True
  | awaiting .. => False

/-- A request that has not been carried out is given up for another turn, or carried out. -/
theorem resume_of_isDue (E : Engine ρ) (q : Request) {errand : Errand q.Answer}
    (h : errand.isDue) (w : ρ) :
    (∃ turns, resume E q errand w = (.yielded (pausing turns), w)) ∨
      resume E q errand w = issue E q w := by
  cases errand with
  | due =>
      simp only [resume]
      cases E.pauses w with
      | zero => exact Or.inr rfl
      | succ turns => exact Or.inl ⟨turns, rfl⟩
  | pausing turns =>
      cases turns with
      | zero => exact Or.inr rfl
      | succ turns => exact Or.inl ⟨turns, rfl⟩
  | awaiting answer arrived => exact h.elim

theorem resume_awaiting (E : Engine ρ) (q : Request) (answer : Except RuntimeError q.Answer)
    (arrived : Bool) (w : ρ) :
    resume E q (awaiting answer arrived) w =
      (if arrived then .finished answer else .asleep (awaiting answer false), w) := by
  cases arrived <;> rfl

theorem issue_cases (E : Engine ρ) (q : Request) (w : ρ) :
    issue E q w = (.asleep (awaiting (E.call q w).1 false), (E.call q w).2) ∨
      issue E q w = (.finished (E.call q w).1, (E.call q w).2) := by
  simp only [issue]
  split
  · exact Or.inl rfl
  · exact Or.inr rfl

/-- The answer of an errand, if it is on its way, is as expected. -/
def Bears (P : Except RuntimeError α → Prop) : Errand α → Prop
  | awaiting answer _ => P answer
  | _ => True

/-- The answer of an errand is as expected at the end of a turn. -/
def Brings (P : Except RuntimeError α → Prop) : Turn (Errand α) (Except RuntimeError α) → Prop
  | .yielded errand => errand.Bears P
  | .asleep errand => errand.Bears P
  | .finished answer => P answer

theorem bears_wake {P : Except RuntimeError α → Prop} {errand : Errand α} :
    errand.wake.Bears P ↔ errand.Bears P := by
  cases errand <;> rfl

/-- An errand brings what it bears, or what it is answered. -/
theorem resume_brings (E : Engine ρ) (q : Request) {errand : Errand q.Answer} {w : ρ}
    {P : Except RuntimeError q.Answer → Prop} (hbears : errand.Bears P)
    (hanswer : P (E.call q w).1) : Brings P (resume E q errand w).1 := by
  by_cases hdue : errand.isDue
  · rcases resume_of_isDue E q hdue w with ⟨turns, heq⟩ | heq
    · rw [heq]
      exact trivial
    · rw [heq]
      rcases issue_cases E q w with hissue | hissue
      · rw [hissue]
        exact hanswer
      · rw [hissue]
        exact hanswer
  · cases errand with
    | due => exact absurd trivial hdue
    | pausing _ => exact absurd trivial hdue
    | awaiting answer arrived =>
        rw [resume_awaiting]
        cases arrived with
        | true => exact hbears
        | false => exact hbears

theorem resume_world (E : Engine ρ) (q : Request) (errand : Errand q.Answer) (w : ρ) :
    (resume E q errand w).2 = w ∨ (resume E q errand w).2 = (E.call q w).2 := by
  by_cases hdue : errand.isDue
  · rcases resume_of_isDue E q hdue w with ⟨turns, heq⟩ | heq
    · exact Or.inl (by rw [heq])
    · rw [heq]
      rcases issue_cases E q w with hissue | hissue
      · exact Or.inr (by rw [hissue])
      · exact Or.inr (by rw [hissue])
  · cases errand with
    | due => exact absurd trivial hdue
    | pausing _ => exact absurd trivial hdue
    | awaiting answer arrived => exact Or.inl (by rw [resume_awaiting])

end Errand

namespace Stand

section Rule

variable (E : Engine ρ) (A : String → List Step → ρ → Prop)
  (B : RuntimeError → String → List Step → ρ → Prop)

/-- Each request takes a fact along, and leads to another one if it fails. -/
def Advances : Prop := ∀ created step rest w, A created (step :: rest) w →
  (∀ answer, (E.call (step.request created) w).1 = .ok answer →
    A (createdAfter created _ answer) rest (E.call (step.request created) w).2) ∧
  (∀ cause, (E.call (step.request created) w).1 = .error cause →
    B cause created (step :: rest) (E.call (step.request created) w).2)

/-- A fact about the steps to come, as an operation that waits shows it. -/
def Shows : Stand → ρ → Prop
  | fresh, _ => False
  | underway created request (.awaiting (.ok answer) _) rest, w =>
    A (createdAfter created request answer) rest w
  | underway created request (.awaiting (.error cause) _) rest, w =>
    ∃ step, step.request created = request ∧ B cause created (step :: rest) w
  | underway created request _ rest, w =>
    ∃ step, step.request created = request ∧ A created (step :: rest) w

/-- A fact at the end of a turn. -/
def ComesTo : Turn Stand (Except RuntimeError Unit) × ρ → Prop
  | (.yielded stand, w) => Shows A B stand w
  | (.asleep stand, w) => Shows A B stand w
  | (.finished (.ok ()), w) => ∃ created, A created [] w
  | (.finished (.error cause), w) => ∃ created step rest, B cause created (step :: rest) w

variable {E A B}

theorem shows_of_isDue {created : String} {request : Request} {errand : Errand request.Answer}
    (hdue : errand.isDue) {rest : List Step} {w : ρ} :
    Shows A B (underway created request errand rest) w ↔
      ∃ step, step.request created = request ∧ A created (step :: rest) w := by
  cases errand with
  | awaiting answer arrived => exact hdue.elim
  | _ => rfl

/-- A step that is due leads to a turn's end with the fact taken along, given that further steps
    do. -/
theorem comesTo_of_isDue (h : Advances E A B) {created : String} {step : Step}
    {errand : Errand (step.request created).Answer} (hdue : errand.isDue) {rest : List Step}
    {w : ρ} (hA : A created (step :: rest) w)
    (hrest : ∀ created w, A created rest w → ComesTo A B (takeSteps E created rest w)) :
    ComesTo A B (takeOn E created (step.request created) errand rest w) := by
  have hcall := h created step rest w hA
  rcases Errand.resume_of_isDue E _ hdue w with ⟨turns, heq⟩ | heq
  · simp only [takeOn, heq]
    exact ⟨step, rfl, hA⟩
  rcases Errand.issue_cases E (step.request created) w with hissue | hissue
  · -- The answer is slow: the request has been carried out all the same.
    simp only [takeOn, heq, hissue, ComesTo]
    cases hanswer : (E.call (step.request created) w).1 with
    | ok answer => exact hcall.1 answer hanswer
    | error cause => exact ⟨step, rfl, hcall.2 cause hanswer⟩
  · simp only [takeOn, heq, hissue]
    cases hanswer : (E.call (step.request created) w).1 with
    | ok answer => exact hrest _ _ (hcall.1 answer hanswer)
    | error cause => exact ⟨created, step, rest, hcall.2 cause hanswer⟩

theorem takeSteps_cons (E : Engine ρ) (created : String) (step : Step) (rest : List Step) (w : ρ) :
    takeSteps E created (step :: rest) w =
      takeOn E created (step.request created) .due rest w := by
  rw [takeSteps, takeOn]
  rcases Errand.resume E (step.request created) .due w with ⟨turn, w⟩
  cases turn with
  | finished answer => cases answer <;> rfl
  | _ => rfl

/-- From a fact before the steps to one at the end of the turn. -/
theorem takeSteps_comesTo (h : Advances E A B) {steps : List Step} {created : String} {w : ρ}
    (hA : A created steps w) : ComesTo A B (takeSteps E created steps w) := by
  induction steps generalizing created w with
  | nil => exact ⟨created, hA⟩
  | cons step rest ih =>
      have hdue : (Errand.due : Errand (step.request created).Answer).isDue := trivial
      rw [takeSteps_cons]
      exact comesTo_of_isDue h hdue hA fun _ _ => ih

/-- From what a waiting operation shows to the end of its next turn. -/
theorem takeOn_comesTo (h : Advances E A B) {created : String} {request : Request}
    {errand : Errand request.Answer} {rest : List Step} {w : ρ}
    (hS : Shows A B (underway created request errand rest) w) :
    ComesTo A B (takeOn E created request errand rest w) := by
  by_cases hdue : errand.isDue
  · rcases (shows_of_isDue hdue).mp hS with ⟨step, rfl, hA⟩
    exact comesTo_of_isDue h hdue hA fun _ _ => takeSteps_comesTo h
  cases errand with
  | due => exact absurd trivial hdue
  | pausing _ => exact absurd trivial hdue
  | awaiting answer arrived =>
      cases arrived with
      | false =>
          simp only [takeOn, Errand.resume_awaiting, Bool.false_eq_true, if_false, ComesTo]
          cases answer <;> exact hS
      | true =>
          simp only [takeOn, Errand.resume_awaiting, if_true]
          cases answer with
          | ok answer => exact takeSteps_comesTo h hS
          | error cause =>
              rcases hS with ⟨step, _, hB⟩
              exact ⟨created, step, rest, hB⟩

theorem shows_wake {stand : Stand} {w : ρ} : Shows A B stand.wake w ↔ Shows A B stand w := by
  cases stand with
  | fresh => rfl
  | underway created request errand rest =>
      cases errand with
      | awaiting answer arrived => cases answer <;> rfl
      | _ => rfl

end Rule

section Facts

variable {ρ' : Type} {A : String → List Step → ρ → Prop} {A' : String → List Step → ρ' → Prop}
  {B : RuntimeError → String → List Step → ρ → Prop}
  {B' : RuntimeError → String → List Step → ρ' → Prop} {stand : Stand} {w : ρ} {w' : ρ'}

theorem Shows.imp (h : Shows A B stand w) (hA : ∀ created rest, A created rest w →
    A' created rest w') (hB : ∀ cause created rest, B cause created rest w →
    B' cause created rest w') : Shows A' B' stand w' := by
  cases stand with
  | fresh => exact h
  | underway created request errand rest =>
      cases errand with
      | awaiting answer arrived =>
          cases answer with
          | ok answer => exact hA _ _ h
          | error cause =>
              rcases h with ⟨step, hstep, hB'⟩
              exact ⟨step, hstep, hB _ _ _ hB'⟩
      | _ =>
          rcases h with ⟨step, hstep, hA'⟩
          exact ⟨step, hstep, hA _ _ hA'⟩

/-- A fact that hangs neither on the steps nor on the answer holds if it is shown. -/
theorem Shows.const {P : Prop} (h : Shows A B stand w) (hA : ∀ created rest,
    A created rest w → P) (hB : ∀ cause created rest, B cause created rest w → P) : P := by
  cases stand with
  | fresh => exact h.elim
  | underway created request errand rest =>
      cases errand with
      | awaiting answer arrived =>
          cases answer with
          | ok answer => exact hA _ _ h
          | error cause =>
              rcases h with ⟨step, _, hB'⟩
              exact hB _ _ _ hB'
      | _ =>
          rcases h with ⟨step, _, hA'⟩
          exact hA _ _ hA'

/-- What a waiting operation shows of some value, it shows of one. -/
theorem Shows.exists {β : Type} {A : β → String → List Step → ρ → Prop}
    {B : β → RuntimeError → String → List Step → ρ → Prop}
    (h : Shows (fun created rest w => ∃ x, A x created rest w)
      (fun cause created rest w => ∃ x, B x cause created rest w) stand w) :
    ∃ x, Shows (A x) (B x) stand w := by
  cases stand with
  | fresh => exact h.elim
  | underway created request errand rest =>
      cases errand with
      | awaiting answer arrived =>
          cases answer with
          | ok answer => exact h
          | error cause =>
              rcases h with ⟨step, hstep, x, hx⟩
              exact ⟨x, step, hstep, hx⟩
      | _ =>
          rcases h with ⟨step, hstep, x, hx⟩
          exact ⟨x, step, hstep, hx⟩

end Facts

end Stand

end Fleet
