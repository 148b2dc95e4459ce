import Fleet.Gate
import Fleet.Proofs.Group
import Fleet.Proofs.Stand

/-!
# What gates do to the world

Gates only list and inspect, so whatever these requests keep is kept while a pass
waits for its dependencies, whatever the gates find and however long it takes.

## Main definitions

* `KeptByLooking`: Listing and inspecting keeps a fact.

## Theorems

* `Poll.inspectAll_rule`: To follow inspections it is enough to look at the turn of one.
* `Gate.step_keeps`: What listing and inspecting keeps, gates keep.
-/

namespace Fleet

variable {ρ : Type}

/-- Listing and inspecting keeps a fact about the world. -/
def KeptByLooking (E : Engine ρ) (P : ρ → Prop) : Prop :=
  ∀ (q : Request) w, q.isMutation = false → P w → P (E.call q w).2

section Keeps

variable {E : Engine ρ} {P : ρ → Prop} {w : ρ}

theorem Errand.resume_keeps (hP : KeptByLooking E P) {q : Request} (hq : q.isMutation = false)
    (errand : Errand q.Answer) (h : P w) : P (Errand.resume E q errand w).2 := by
  rcases Errand.resume_world E q errand w with heq | heq
  · rw [heq]
    exact h
  · rw [heq]
    exact hP q w hq h

namespace Poll

theorem verdict_eq_true {dependency : String} {health : Option Health}
    (h : verdict dependency health = .ok true) : health = some .healthy := by
  unfold verdict at h
  split at h
  · cases h
  · rfl
  · cases h

/-- What follows for the poll from the turn of an inspection: `A` holds of inspections, and `B` is
    to hold when the turn of the poll ends. The next container is inspected if this one is healthy
    and there is a next one. -/
def AfterInspecting (dependency id : String) (rest : List String)
    (A : String → Errand Details → List String → ρ → Prop)
    (B : Turn Poll (Except Error Bool) → ρ → Prop) :
    Turn (Errand Details) (Except RuntimeError Details) × ρ → Prop
  | (.yielded errand, w) => B (.yielded (inspecting id errand rest)) w
  | (.asleep errand, w) => B (.asleep (inspecting id errand rest)) w
  | (.finished (.error cause), w) => B (.finished (.error (.runtime cause))) w
  | (.finished (.ok details), w) =>
    (details.health = some .healthy → ∀ next rest', rest = next :: rest' → A next .due rest' w) ∧
      ((details.health = some .healthy → rest = []) →
        B (.finished (verdict dependency details.health)) w)

/-- To follow inspections it is enough to look at the turn of one. -/
theorem inspectAll_rule {dependency : String}
    {A : String → Errand Details → List String → ρ → Prop}
    {B : Turn Poll (Except Error Bool) → ρ → Prop}
    (hturn : ∀ id errand rest w, A id errand rest w →
      AfterInspecting dependency id rest A B (Errand.resume E (.inspect id) errand w))
    {id : String} {errand : Errand Details} {rest : List String} (h : A id errand rest w) :
    B (inspectAll E dependency id errand rest w).1
      (inspectAll E dependency id errand rest w).2 := by
  induction rest generalizing id errand w with
  | nil =>
      have hafter := hturn id errand [] w h
      rw [inspectAll]
      rcases hresult : Errand.resume E (.inspect id) errand w with ⟨turn, w'⟩
      rw [hresult] at hafter
      cases turn with
      | finished answer =>
          cases answer with
          | error cause => exact hafter
          | ok details =>
              simp only
              split
              · next heq => cases heq
              · exact hafter.2 fun _ => rfl
      | _ => exact hafter
  | cons next rest ih =>
      have hafter := hturn id errand (next :: rest) w h
      rw [inspectAll]
      rcases hresult : Errand.resume E (.inspect id) errand w with ⟨turn, w'⟩
      rw [hresult] at hafter
      cases turn with
      | finished answer =>
          cases answer with
          | error cause => exact hafter
          | ok details =>
              simp only
              split
              · next hverdict heq =>
                rcases List.cons.inj heq with ⟨rfl, rfl⟩
                exact ih (hafter.1 (verdict_eq_true hverdict) next rest rfl)
              · next hnot =>
                refine hafter.2 fun hhealthy => absurd rfl (hnot next rest ?_)
                rw [hhealthy]
                rfl
      | _ => exact hafter

theorem inspectAll_keeps (hP : KeptByLooking E P) (dependency : String) (rest : List String)
    (id : String) (errand : Errand Details) (h : P w) :
    P (inspectAll E dependency id errand rest w).2 := by
  refine inspectAll_rule (A := fun _ _ _ w => P w) (B := fun _ w => P w) ?_ h
  intro id errand rest w h
  have hkeeps := Errand.resume_keeps hP (q := .inspect id) rfl errand h
  rcases hresult : Errand.resume E (.inspect id) errand w with ⟨turn, w'⟩
  rw [hresult] at hkeeps
  cases turn with
  | finished answer =>
      cases answer with
      | error cause => exact hkeeps
      | ok details => exact ⟨fun _ _ _ _ => hkeeps, fun _ => hkeeps⟩
  | _ => exact hkeeps

theorem resume_keeps (hP : KeptByLooking E P) (project dependency : String) (poll : Poll)
    (h : P w) : P (resume E project dependency poll w).2 := by
  cases poll with
  | inspecting id errand rest => exact inspectAll_keeps hP dependency rest id errand h
  | listing errand =>
      have hkeeps := Errand.resume_keeps hP
        (q := .list (Labels.serviceFilter project dependency)) rfl errand h
      simp only [resume]
      rcases hresult : Errand.resume E (.list (Labels.serviceFilter project dependency)) errand w
        with ⟨turn, w'⟩
      rw [hresult] at hkeeps
      cases turn with
      | finished answer =>
          cases answer with
          | error cause => exact hkeeps
          | ok containers =>
              simp only
              split
              · exact hkeeps
              · exact inspectAll_keeps hP _ _ _ _ hkeeps
      | _ => exact hkeeps

end Poll

namespace Gate

theorem pollOn_keeps (hP : KeptByLooking E P) (project dependency : String) (poll : Poll)
    {scope : Scope ρ} (h : P scope.world) : P (pollOn E project dependency poll scope).2.world := by
  have hkeeps := Poll.resume_keeps hP project dependency poll h
  rw [pollOn]
  rcases hresult : Poll.resume E project dependency poll scope.world with ⟨turn, w'⟩
  rw [hresult] at hkeeps
  cases turn with
  | finished verdict =>
      cases verdict with
      | error error => exact hkeeps
      | ok passed =>
          cases passed with
          | true => exact hkeeps
          | false =>
              simp only
              split
              · exact hkeeps
              · exact hkeeps
  | _ => exact hkeeps

theorem watch_keeps (hP : KeptByLooking E P) (project : String) (watch : Watch) {scope : Scope ρ}
    (h : P scope.world) : P (watch.resume E project scope).2.world := by
  rcases watch with ⟨dependency, gate⟩
  simp only [Watch.resume]
  cases gate with
  | polling poll => exact pollOn_keeps hP project dependency poll h
  | resting elapsed =>
      cases elapsed with
      | true => exact pollOn_keeps hP project dependency .fresh h
      | false =>
          simp only [resume]
          split
          · exact h
          · exact h

/-- What listing and inspecting keeps, gates keep, and so does the end of the work if it does. -/
theorem step_keeps (hP : KeptByLooking E P) (project : String) (move : Move)
    (hcancel : move = .cancel → ∀ w, P w → P (E.cancel w)) (gates : Group Watch) (h : P w) :
    P (gates.step (conduct E project) move w).2 := by
  have hturn : Group.KeptByTurns (conduct E project) fun _ _ scope => P scope.world := by
    intro slot rest failure scope h
    have hkeeps := watch_keeps hP project slot.task h
    rcases Group.guarded_cases (conduct E project).stopped (conduct E project).resume slot.started
      slot.task scope with heq | ⟨heq, _⟩ | ⟨heq, _⟩
    · rw [heq]
      exact hkeeps
    · rw [heq]
      exact h
    · rw [heq]
      exact hkeeps
  exact Group.step_invariant hturn
    (fun _ _ _ _ h => h) move (fun hmove _ _ _ h => hcancel hmove _ h) h

end Gate

end Keeps

end Fleet
