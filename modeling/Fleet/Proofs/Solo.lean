import Fleet.Proofs.Gate

/-!
# Tasks run alone

A task that is run alone has every turn, and what it waits for happens as soon as it sleeps.
Such a run is a recursion over turns and gives no answer when there are too few of them, so
what it comes to is said of all numbers of turns from some least one on (`EndsWith`).

To find that number is a nuisance, since it depends on how often the engine has tasks give
up their turn and on which answers are slow. `Ending` leaves it out: it is the same run as
an inductive predicate, one constructor for each way a turn can end. A request is then gone
through once (`ending_of_request`), whatever its pauses, and what follows it is all that is
left to look at.

## Main definitions

* `EndsWith`: Run alone, with turns enough, a task comes to a result.
* `Ending`: The turns of a task run alone lead to its end.

## Theorems

* `Ending.endsWith`: Turns that lead to the end are finitely many.
* `EndsWith.unique`: A task comes to one result.
* `ending_of_request`: A request leads to the end if its answer does.
-/

namespace Fleet

section Runs

variable {σ W α : Type} {resume : σ → W → Turn σ α × W} {wake : σ → σ} {task : σ} {w : W}

/-- Run alone, with turns enough, a task comes to an end with a result. -/
def EndsWith (resume : σ → W → Turn σ α × W) (wake : σ → σ) (task : σ) (w : W) (result : α) :
    Prop :=
  ∃ least, ∀ turns, least ≤ turns → ∃ after, runAlone resume wake turns task w =
    some (result, after)

/-- A task comes to one result. -/
theorem EndsWith.unique {result result' : α} (h : EndsWith resume wake task w result)
    (h' : EndsWith resume wake task w result') : result = result' := by
  rcases h with ⟨least, h⟩
  rcases h' with ⟨least', h'⟩
  rcases h (max least least') (Nat.le_max_left _ _) with ⟨after, heq⟩
  rcases h' (max least least') (Nat.le_max_right _ _) with ⟨after', heq'⟩
  exact congrArg Prod.fst (Option.some.inj (heq.symm.trans heq'))

/-- A task that comes to an end is not without one. -/
theorem EndsWith.exists_some {result : α} (h : EndsWith resume wake task w result) :
    ¬∀ turns, runAlone resume wake turns task w = none := by
  rcases h with ⟨least, h⟩
  intro hnone
  rcases h least (Nat.le_refl least) with ⟨after, heq⟩
  rw [hnone] at heq
  cases heq

/-- The turns of a task run alone lead to its end, with a result and a world of which a fact
    holds. -/
inductive Ending (resume : σ → W → Turn σ α × W) (wake : σ → σ) (Q : α → W → Prop) : σ → W → Prop
  | finished {task : σ} {w : W} {result : α} {after : W} :
    resume task w = (.finished result, after) → Q result after → Ending resume wake Q task w
  | yielded {task next : σ} {w after : W} :
    resume task w = (.yielded next, after) → Ending resume wake Q next after →
    Ending resume wake Q task w
  | asleep {task next : σ} {w after : W} :
    resume task w = (.asleep next, after) → Ending resume wake Q (wake next) after →
    Ending resume wake Q task w

/-- From what a turn has come to, the turns to come lead to the end. -/
def Ahead (resume : σ → W → Turn σ α × W) (wake : σ → σ) (Q : α → W → Prop) :
    Turn σ α × W → Prop
  | (.finished result, after) => Q result after
  | (.yielded next, after) => Ending resume wake Q next after
  | (.asleep next, after) => Ending resume wake Q (wake next) after

variable {Q : α → W → Prop}

theorem ending_iff_ahead : Ending resume wake Q task w ↔ Ahead resume wake Q (resume task w) := by
  constructor
  · intro h
    cases h with
    | finished heq hQ =>
        rw [heq]
        exact hQ
    | yielded heq hnext =>
        rw [heq]
        exact hnext
    | asleep heq hnext =>
        rw [heq]
        exact hnext
  · intro h
    rcases heq : resume task w with ⟨turn, after⟩
    rw [heq] at h
    cases turn with
    | yielded next => exact .yielded heq h
    | asleep next => exact .asleep heq h
    | finished result => exact .finished heq h

/-- Turns that lead to the end are finitely many. -/
theorem Ending.endsWith {result : α} (h : Ending resume wake Q task w)
    (hQ : ∀ result' after, Q result' after → result' = result) :
    EndsWith resume wake task w result := by
  induction h with
  | @finished task w result' after heq hnow =>
      refine ⟨1, fun turns hturns => ⟨after, ?_⟩⟩
      rcases Nat.exists_eq_succ_of_ne_zero (Nat.ne_of_gt hturns) with ⟨turns, rfl⟩
      rw [runAlone, heq, hQ result' after hnow]
  | yielded heq _ ih =>
      rcases ih with ⟨least, ih⟩
      refine ⟨least + 1, fun turns hturns => ?_⟩
      rcases Nat.exists_eq_succ_of_ne_zero (Nat.ne_of_gt (Nat.lt_of_lt_of_le
        (Nat.succ_pos least) hturns)) with ⟨turns, rfl⟩
      rw [runAlone, heq]
      exact ih turns (Nat.le_of_succ_le_succ hturns)
  | asleep heq _ ih =>
      rcases ih with ⟨least, ih⟩
      refine ⟨least + 1, fun turns hturns => ?_⟩
      rcases Nat.exists_eq_succ_of_ne_zero (Nat.ne_of_gt (Nat.lt_of_lt_of_le
        (Nat.succ_pos least) hturns)) with ⟨turns, rfl⟩
      rw [runAlone, heq]
      exact ih turns (Nat.le_of_succ_le_succ hturns)

end Runs

/-! ### Requests -/

section Requests

variable {σ α ρ : Type} {resume : σ → ρ → Turn σ α × ρ} {wake : σ → σ} {Q : α → ρ → Prop}
  {E : Engine ρ} {q : Request} {task : Errand q.Answer → σ}
  {next : Except RuntimeError q.Answer → ρ → Turn σ α × ρ}

/-- A turn of a task that has a request made, and goes on with the answer. -/
def requesting (E : Engine ρ) (q : Request) (task : Errand q.Answer → σ)
    (next : Except RuntimeError q.Answer → ρ → Turn σ α × ρ) (errand : Errand q.Answer) (w : ρ) :
    Turn σ α × ρ :=
  match Errand.resume E q errand w with
  | (.yielded errand, w) => (.yielded (task errand), w)
  | (.asleep errand, w) => (.asleep (task errand), w)
  | (.finished answer, w) => next answer w

/-- A request leads to the end if its answer does, however many turns are given up before it and
    whether or not the answer is slow. -/
theorem ending_of_request (task : Errand q.Answer → σ)
    (hresume : ∀ errand w, resume (task errand) w = requesting E q task next errand w)
    (hwake : ∀ errand, wake (task errand) = task errand.wake) {w : ρ}
    (hnext : Ahead resume wake Q (next (E.call q w).1 (E.call q w).2)) :
    Ending resume wake Q (task .due) w := by
  have hissued : ∀ errand : Errand q.Answer, Errand.resume E q errand w = Errand.issue E q w →
      Ending resume wake Q (task errand) w := by
    intro errand heq
    rw [ending_iff_ahead, hresume, requesting, heq]
    rcases Errand.issue_cases E q w with hissue | hissue
    · rw [hissue]
      refine ending_iff_ahead.mpr ?_
      rw [hwake, hresume]
      exact hnext
    · rw [hissue]
      exact hnext
  have hpausing : ∀ turns, Ending resume wake Q (task (.pausing turns)) w := by
    intro turns
    induction turns with
    | zero => exact hissued _ rfl
    | succ turns ih =>
        have hturn : resume (task (.pausing (turns + 1))) w =
            (.yielded (task (.pausing turns)), w) := by
          rw [hresume]
          rfl
        exact .yielded hturn ih
  cases hpauses : E.pauses w with
  | zero =>
      refine hissued .due ?_
      rw [Errand.resume, hpauses, Errand.pauseOrIssue]
  | succ turns =>
      have hturn : resume (task .due) w = (.yielded (task (.pausing turns)), w) := by
        rw [hresume, requesting, Errand.resume, hpauses, Errand.pauseOrIssue]
      exact .yielded hturn (hpausing turns)

end Requests

end Fleet
