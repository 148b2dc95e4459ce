import Fleet.Container.Error

/-!
# Engines and errands

A pass runs as tasks that take turns. A turn lasts until the task is done or has
to wait, and only between turns can another task act. An engine is what the
tasks run against: a container runtime, the caller's wish to go on, and the
places where a task that calls the runtime has to let the others have a turn.

A task waits in two ways. It yields when it is ready to go on at once and only
lets the others go first; it is asleep when it waits for something outside, an
answer or the end of a delay.

An errand is one request on its way: it may give up some turns before it is
carried out, and then may have to wait for the answer.

## Main definitions

* `Engine`: What tasks run against.
* `Turn`: What a task has come to at the end of a turn.
* `Errand`: A request on its way.
* `Errand.resume`: A turn of an errand.
-/

namespace Fleet

/-- What tasks run against; `ρ` holds the state of the runtime and everything around it. -/
structure Engine (ρ : Type) where
  -- Carries out a request.
  call : (q : Request) → ρ → Except RuntimeError q.Answer × ρ
  -- How many turns a task gives up before its next request is carried out.
  pauses : ρ → Nat
  -- Whether the answer to the request that led from one state to another is slow to arrive.
  slow : ρ → ρ → Bool
  -- Whether the caller has put an end to the work.
  cancelled : ρ → Bool
  -- The caller puts an end to the work.
  cancel : ρ → ρ

/-- What a task has come to at the end of a turn. -/
inductive Turn (σ α : Type)
  -- It can go on at once.
  | yielded (state : σ)
  -- It waits for something outside.
  | asleep (state : σ)
  | finished (result : α)

namespace Turn

variable {σ τ α β : Type}

/-- A turn of a task as a turn of a larger one. -/
def map (f : σ → τ) (g : α → β) : Turn σ α → Turn τ β
  | yielded state => yielded (f state)
  | asleep state => asleep (f state)
  | finished result => finished (g result)

end Turn

/-- A request on its way to an answer of type `α`. -/
inductive Errand (α : Type)
  -- Not begun.
  | due
  -- Carried out after that many more turns.
  | pausing (turns : Nat)
  -- Carried out; whether the answer has arrived.
  | awaiting (answer : Except RuntimeError α) (arrived : Bool)

namespace Errand

variable {ρ α : Type}

/-- The answer arrives. -/
def wake : Errand α → Errand α
  | awaiting answer _ => awaiting answer true
  | errand => errand

/-- Has the request carried out. -/
def issue (E : Engine ρ) (q : Request) (w : ρ) :
    Turn (Errand q.Answer) (Except RuntimeError q.Answer) × ρ :=
  match E.call q w with
  | (answer, after) =>
    if E.slow w after then (.asleep (awaiting answer false), after) else (.finished answer, after)

/-- Gives up that many turns, and then has the request carried out. -/
def pauseOrIssue (E : Engine ρ) (q : Request) (turns : Nat) (w : ρ) :
    Turn (Errand q.Answer) (Except RuntimeError q.Answer) × ρ :=
  match turns with
  | 0 => issue E q w
  | turns + 1 => (.yielded (pausing turns), w)

/-- A turn of an errand. -/
def resume (E : Engine ρ) (q : Request) :
    Errand q.Answer → ρ → Turn (Errand q.Answer) (Except RuntimeError q.Answer) × ρ
  | due, w => pauseOrIssue E q (E.pauses w) w
  | pausing turns, w => pauseOrIssue E q turns w
  | awaiting answer true, w => (.finished answer, w)
  | awaiting answer false, w => (.asleep (awaiting answer false), w)

end Errand

end Fleet
