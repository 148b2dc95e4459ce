import Fleet.Proofs.Gate
import Mathlib.Data.Prod.Lex
import Mathlib.Order.WithBot

/-!
# How far polls are from their end

A turn takes a poll on unless the poll waits for an answer, and then the answer does. What gets
smaller is not a number that is known beforehand. A listing may bring any number of
containers, and a request may give up any number of turns, which is only known once it is
due. So distances are pairs that are compared in order: containers that are left to inspect
count for more than turns, and turns for more than an answer on its way. Nothing is known of
the world, which may change between turns.

## Main definitions

* `Errand.distance`, `Poll.distance`: How far a request is from its answer, and a poll from its end.
* `Errand.Sleeps`, `Poll.Sleeps`: An answer has not arrived.

## Theorems

* `Poll.distance_wake`, `Poll.resume_distance`: An answer or a turn takes a poll on.
-/

namespace Fleet

variable {ρ : Type} {E : Engine ρ}

/-- The turn does not end the task, and leaves it in a state of which a fact holds. -/
def Turn.Leaves {σ α : Type} (P : σ → Prop) : Turn σ α → Prop
  | yielded state | asleep state => P state
  | finished _ => True

namespace Errand

variable {α : Type}

/-- How far a request is from its answer. -/
def distance : Errand α → ℕ ×ₗ ℕ
  | due => toLex (2, 0)
  | pausing turns => toLex (1, turns)
  | awaiting _ arrived => toLex (0, if arrived then 0 else 1)

/-- A turn is of no use before the answer has arrived. -/
def Sleeps : Errand α → Prop
  | awaiting _ false => True
  | _ => False

theorem distance_wake {errand : Errand α} (h : errand.Sleeps) :
    errand.wake.distance < errand.distance := by
  rcases errand with _ | _ | ⟨answer, _ | _⟩
  · exact h.elim
  · exact h.elim
  · exact Prod.Lex.toLex_lt_toLex.mpr (Or.inr ⟨rfl, Nat.zero_lt_one⟩)
  · exact h.elim

theorem wake_eq_self {errand : Errand α} (h : ¬errand.Sleeps) : errand.wake = errand := by
  rcases errand with _ | _ | ⟨answer, _ | _⟩
  · rfl
  · rfl
  · exact absurd trivial h
  · rfl

theorem resume_distance (E : Engine ρ) (q : Request) (errand : Errand q.Answer) (w : ρ) :
    (resume E q errand w).1.Leaves fun next =>
      next.distance < errand.distance ∨ next = errand ∧ errand.Sleeps := by
  have hissue : ∀ {errand : Errand q.Answer}, (∀ answer : Except RuntimeError q.Answer,
      (awaiting answer false).distance < errand.distance) → (issue E q w).1.Leaves fun next =>
        next.distance < errand.distance ∨ next = errand ∧ errand.Sleeps := by
    intro errand hless
    rcases issue_cases E q w with heq | heq
    · rw [heq]
      exact Or.inl (hless _)
    · rw [heq]
      exact trivial
  cases errand with
  | due =>
      rw [resume]
      cases E.pauses w with
      | zero => exact hissue fun _ => Prod.Lex.toLex_lt_toLex.mpr (Or.inl (Nat.succ_pos 1))
      | succ turns => exact Or.inl (Prod.Lex.toLex_lt_toLex.mpr (Or.inl (Nat.lt_succ_self 1)))
  | pausing turns =>
      rw [resume]
      cases turns with
      | zero => exact hissue fun _ => Prod.Lex.toLex_lt_toLex.mpr (Or.inl Nat.one_pos)
      | succ turns =>
          exact Or.inl (Prod.Lex.toLex_lt_toLex.mpr (Or.inr ⟨rfl, Nat.lt_succ_self turns⟩))
  | awaiting answer arrived =>
      rw [resume_awaiting]
      cases arrived with
      | true => exact trivial
      | false => exact Or.inr ⟨rfl, trivial⟩

end Errand

namespace Poll

/-- How far a poll is from its end. A poll that lists has all inspections before it. -/
def distance : Poll → WithTop ℕ ×ₗ ℕ ×ₗ ℕ
  | listing errand => toLex (⊤, errand.distance)
  | inspecting _ errand rest => toLex (WithTop.some rest.length, errand.distance)

/-- A turn is of no use before the answer has arrived. -/
def Sleeps : Poll → Prop
  | listing errand => errand.Sleeps
  | inspecting _ errand _ => errand.Sleeps

theorem distance_wake {poll : Poll} (h : poll.Sleeps) : poll.wake.distance < poll.distance := by
  cases poll with
  | listing errand => exact Prod.Lex.toLex_lt_toLex.mpr (Or.inr ⟨rfl, Errand.distance_wake h⟩)
  | inspecting id errand rest =>
      exact Prod.Lex.toLex_lt_toLex.mpr (Or.inr ⟨rfl, Errand.distance_wake h⟩)

theorem wake_eq_self {poll : Poll} (h : ¬poll.Sleeps) : poll.wake = poll := by
  cases poll with
  | listing errand => exact congrArg listing (Errand.wake_eq_self h)
  | inspecting id errand rest =>
      exact congrArg (inspecting id · rest) (Errand.wake_eq_self h)

theorem inspectAll_distance (start : Poll) {id : String} {errand : Errand Details}
    {rest : List String} {w : ρ} (h : (inspecting id errand rest).distance < start.distance ∨
      inspecting id errand rest = start) :
    (inspectAll E dependency id errand rest w).1.Leaves fun next =>
      next.distance < start.distance ∨ next = start ∧ start.Sleeps := by
  refine inspectAll_rule (A := fun id errand rest _ =>
      (inspecting id errand rest).distance < start.distance ∨ inspecting id errand rest = start)
    (B := fun turn _ => turn.Leaves fun next =>
      next.distance < start.distance ∨ next = start ∧ start.Sleeps) ?_ h
  intro id errand rest w h
  have hturn := Errand.resume_distance E (.inspect id) errand w
  have hwaits : ∀ errand' : Errand Details, (errand'.distance < errand.distance ∨
      errand' = errand ∧ errand.Sleeps) → (inspecting id errand' rest).distance < start.distance ∨
        inspecting id errand' rest = start ∧ start.Sleeps := by
    rintro errand' (hless | ⟨rfl, hsleeps⟩)
    · have hless' : (inspecting id errand' rest).distance < (inspecting id errand rest).distance :=
        Prod.Lex.toLex_lt_toLex.mpr (Or.inr ⟨rfl, hless⟩)
      rcases h with h | h
      · exact Or.inl (hless'.trans h)
      · exact Or.inl (h ▸ hless')
    · rcases h with h | h
      · exact Or.inl h
      · exact Or.inr ⟨h, h ▸ hsleeps⟩
  rcases hresult : Errand.resume E (.inspect id) errand w with ⟨turn, w'⟩
  rw [hresult] at hturn
  cases turn with
  | yielded errand' => exact hwaits errand' hturn
  | asleep errand' => exact hwaits errand' hturn
  | finished answer =>
      cases answer with
      | error cause => exact trivial
      | ok details =>
          refine ⟨fun _ next rest' hrest => Or.inl ?_, fun _ => trivial⟩
          have hless :
              (inspecting next .due rest').distance < (inspecting id errand rest).distance := by
            rw [hrest]
            exact Prod.Lex.toLex_lt_toLex.mpr (Or.inl (WithTop.coe_lt_coe.mpr
              (Nat.lt_succ_self rest'.length)))
          rcases h with h | h
          · exact hless.trans h
          · exact h ▸ hless

/-- A turn takes a poll on, unless the poll waits for an answer. -/
theorem resume_distance (E : Engine ρ) (project dependency : String) (poll : Poll) (w : ρ) :
    (resume E project dependency poll w).1.Leaves fun next =>
      next.distance < poll.distance ∨ next = poll ∧ poll.Sleeps := by
  cases poll with
  | inspecting id errand rest => exact inspectAll_distance _ (Or.inr rfl)
  | listing errand =>
      have hturn := Errand.resume_distance E
        (.list (Labels.serviceFilter project dependency)) errand w
      have hwaits : ∀ errand' : Errand (List Summary), (errand'.distance < errand.distance ∨
          errand' = errand ∧ errand.Sleeps) →
          (listing errand').distance < (listing errand).distance ∨
            listing errand' = listing errand ∧ (listing errand).Sleeps := by
        rintro errand' (hless | ⟨rfl, hsleeps⟩)
        · exact Or.inl (Prod.Lex.toLex_lt_toLex.mpr (Or.inr ⟨rfl, hless⟩))
        · exact Or.inr ⟨rfl, hsleeps⟩
      rw [resume]
      rcases hresult : Errand.resume E (.list (Labels.serviceFilter project dependency)) errand w
        with ⟨turn, w'⟩
      rw [hresult] at hturn
      cases turn with
      | yielded errand' => exact hwaits errand' hturn
      | asleep errand' => exact hwaits errand' hturn
      | finished answer =>
          cases answer with
          | error cause => exact trivial
          | ok containers =>
              simp only
              split
              · exact trivial
              · exact inspectAll_distance _ (Or.inl (Prod.Lex.toLex_lt_toLex.mpr
                  (Or.inl (WithTop.coe_lt_top _))))

end Poll

end Fleet
