import Fleet.Engine
import Fleet.Error

/-!
# Groups of tasks

Tasks that run beside each other and stand or fall together. The group has a
token of its own under the caller's: it counts as cancelled when either is. The
first task to fail trips the group's token, and its error is what the group
reports; the caller's token is left alone.

Each task is guarded. One that has not had a turn when the token is cancelled
never gets one. One that has begun gets its turn, and is dropped at the end of
it if it would have to wait; a turn that brings it to its end counts. So a
cancelled group is over after at most one more turn of each task.

Tasks that can go on stand in a queue, and a task that yields goes to its end.
Tasks that are asleep stand apart until what they wait for happens, or until the
token is cancelled.

What happens to a group is a list of moves. `Group.next?` is the move of the
queue's own discipline, but a step is defined for every move, so that other
orders of turns can be spoken of.

## Main definitions

* `Scope`: A group's token with the world around it.
* `Conduct`: How the tasks of a group act.
* `guarded`: A turn of a guarded task.
* `Group`: The tasks of a group.
* `Move`, `Group.step`: What can happen to a group, and what comes of it.
* `drive`: Running anything that offers moves.
-/

namespace Fleet

/-- A group's own token, with the world the tasks act on. -/
structure Scope (W : Type) where
  -- The group's token has been cancelled.
  tripped : Bool
  -- The world, the caller's token included.
  world : W

/-- How tasks with states of type `σ` act on a world of type `W`. -/
structure Conduct (σ W : Type) where
  -- Whether the caller has put an end to the work.
  cancelled : W → Bool
  -- The caller puts an end to the work.
  cancel : W → W
  -- A turn of a task.
  resume : σ → Scope W → Turn σ (Except Error Unit) × Scope W
  -- What a sleeping task waits for happens.
  wake : σ → σ

/-- Whether a token, the group's or the caller's, is cancelled. -/
def Conduct.stopped {σ W : Type} (C : Conduct σ W) (s : Scope W) : Bool :=
  s.tripped || C.cancelled s.world

/-- A turn of a task that is dropped once it waits under a cancelled token, and that does not
    begin under one. -/
def guarded {σ W α : Type} (cancelled : W → Bool)
    (resume : σ → W → Turn σ (Except Error α) × W) (started : Bool) (task : σ) (w : W) :
    Turn σ (Except Error α) × W :=
  if !started && cancelled w then (.finished (.error .cancelled), w)
  else
    match resume task w with
    | (.finished result, w) => (.finished result, w)
    | (waiting, w) =>
      if cancelled w then (.finished (.error .cancelled), w) else (waiting, w)

/-- A task of a group. -/
structure Slot (σ : Type) where
  task : σ
  -- It has had a turn.
  started : Bool

/-- Tasks that stand or fall together. -/
structure Group (σ : Type) where
  -- Tasks that can go on, the next one first.
  ready : List (Slot σ)
  -- Tasks that wait for something outside.
  asleep : List (Slot σ)
  -- The group's token has been cancelled.
  tripped : Bool
  -- The first failure.
  failure : Option Error

/-- What can happen to something that runs. -/
inductive Move
  -- The task at a place of the queue has a turn.
  | poll (place : Nat)
  -- What the sleeping tasks wait for happens.
  | fire
  -- The caller puts an end to the work.
  | cancel
  deriving DecidableEq

namespace Group

variable {σ W : Type}

/-- A group of tasks that have not begun. -/
def ofTasks (tasks : List σ) : Group σ := ⟨tasks.map (⟨·, false⟩), [], false, none⟩

/-- Number of tasks that are not done. -/
def size (g : Group σ) : Nat := g.ready.length + g.asleep.length

/-- All tasks are done. -/
def isOver (g : Group σ) : Bool := g.ready.isEmpty && g.asleep.isEmpty

/-- What the group reports once all tasks are done. -/
def outcome (g : Group σ) : Except Error Unit :=
  match g.failure with
  | none => .ok ()
  | some error => .error error

/-- Takes in what a task has come to; the first failure is kept and trips the token. -/
def settle (g : Group σ) : Turn σ (Except Error Unit) → Group σ
  | .yielded task => { g with ready := g.ready ++ [⟨task, true⟩] }
  | .asleep task => { g with asleep := g.asleep ++ [⟨task, true⟩] }
  | .finished (.ok ()) => g
  | .finished (.error error) => { g with failure := g.failure.or (some error), tripped := true }

/-- Lets the sleeping tasks stand in the queue, each changed in the way given. -/
def rouse (g : Group σ) (change : σ → σ) : Group σ :=
  { g with
    ready := g.ready ++ g.asleep.map fun slot => { slot with task := change slot.task }
    asleep := [] }

/-- Under a cancelled token nobody sleeps. -/
def heed (C : Conduct σ W) (g : Group σ) (w : W) : Group σ :=
  if C.stopped ⟨g.tripped, w⟩ then g.rouse id else g

/-- The task at a place of the queue has a turn. -/
def poll (C : Conduct σ W) (place : Nat) (g : Group σ) (w : W) : Group σ × W :=
  match g.ready[place]? with
  | none => (g, w)
  | some slot =>
    match guarded C.stopped C.resume slot.started slot.task ⟨g.tripped, w⟩ with
    | (turn, scope) =>
      let left := { g with ready := g.ready.eraseIdx place, tripped := scope.tripped }
      ((left.settle turn).heed C scope.world, scope.world)

/-- What comes of a move. -/
def step (C : Conduct σ W) (move : Move) (g : Group σ) (w : W) : Group σ × W :=
  match move with
  | .poll place => g.poll C place w
  | .fire => (g.rouse C.wake, w)
  | .cancel => (g.heed C (C.cancel w), C.cancel w)

/-- The move the queue's own discipline makes: the first task has a turn, and what the sleeping
    tasks wait for happens when nobody else can go on. -/
def next? (g : Group σ) : Option Move :=
  if g.isOver then none else if g.ready.isEmpty then some .fire else some (.poll 0)

end Group

/-- Makes moves as long as there are any, at most `turns` of them. -/
def drive {S : Type} (next? : S → Option Move) (step : Move → S → S) : Nat → S → Option S
  | turns, s =>
    match next? s, turns with
    | none, _ => some s
    | some _, 0 => none
    | some move, turns + 1 => drive next? step turns (step move s)

/-- Runs a single task with no others beside it, for at most `turns` turns. -/
def runAlone {σ W α : Type} (resume : σ → W → Turn σ α × W) (wake : σ → σ) :
    Nat → σ → W → Option (α × W)
  | 0, _, _ => none
  | turns + 1, task, w =>
    match resume task w with
    | (.finished result, w) => some (result, w)
    | (.yielded task, w) => runAlone resume wake turns task w
    | (.asleep task, w) => runAlone resume wake turns (wake task) w

end Fleet
