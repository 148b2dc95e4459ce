import Fleet.Group

/-!
# Scripted tasks

Tasks that call no runtime and do nothing but keep a log, for trying out how a
group treats its tasks. A script says how often its task yields and how it
ends: well, with an error, never, or by cancelling the caller's token or the
group's own.

## Main definitions

* `Script`: What a task is to do.
* `Script.Actor`: A task that follows its script.
* `Script.rehearse`: Running a group of scripted tasks.
* `Count`: A task that counts its turns, for trying out a token without a group.
-/

namespace Fleet

/-- How a scripted task ends. -/
inductive Script.Ending
  | well
  | badly
  -- It waits for something that never happens.
  | never
  -- It cancels the caller's token and ends well.
  | cancelCaller
  -- It cancels the group's token, yields, and ends well.
  | cancelGroup
  deriving DecidableEq

/-- What a task is to do. -/
structure Script where
  name : String
  -- How often it yields before its ending.
  yields : Nat
  ending : Script.Ending

namespace Script

/-- The log of scripted tasks, with the caller's token. -/
structure Notes where
  lines : List String
  cancelled : Bool

/-- Where a scripted task stands. -/
inductive Place
  | beginning
  -- It has yielded that often.
  | counting (turn : Nat)
  -- It has cancelled the group's token.
  | afterCancel
  -- It waits for something that never happens.
  | stuck

/-- A task that follows its script. -/
structure Actor where
  script : Script
  place : Place

/-- Adds a line to the log. -/
def note (script : Script) (what : String) (s : Scope Notes) : Scope Notes :=
  { s with world := { s.world with lines := s.world.lines ++ [script.name ++ ":" ++ what] } }

/-- Ends a script well. -/
def endWell (script : Script) (s : Scope Notes) : Turn Actor (Except Error Unit) × Scope Notes :=
  (.finished (.ok ()), note script "ok" s)

/-- The turn after the last yield. -/
def finish (script : Script) (s : Scope Notes) : Turn Actor (Except Error Unit) × Scope Notes :=
  match script.ending with
  | .well => endWell script s
  | .badly =>
    (.finished (.error (.settings (.other ("task " ++ script.name)))), note script "err" s)
  | .never => (.asleep ⟨script, .stuck⟩, s)
  | .cancelCaller =>
    endWell script (note script "cancel" { s with world := { s.world with cancelled := true } })
  | .cancelGroup =>
    (.yielded ⟨script, .afterCancel⟩, note script "cancel" { s with tripped := true })

/-- Yields for the `turn`th time, or ends if that is one too many. -/
def goOn (script : Script) (turn : Nat) (s : Scope Notes) :
    Turn Actor (Except Error Unit) × Scope Notes :=
  if turn ≤ script.yields then (.yielded ⟨script, .counting turn⟩, s) else finish script s

/-- A turn of a scripted task. -/
def Actor.resume (actor : Actor) (s : Scope Notes) :
    Turn Actor (Except Error Unit) × Scope Notes :=
  match actor.place with
  | .beginning => goOn actor.script 1 (note actor.script "start" s)
  | .counting turn => goOn actor.script (turn + 1) (note actor.script (toString turn) s)
  | .afterCancel => endWell actor.script (note actor.script "after0" s)
  | .stuck => (.asleep actor, s)

/-- How scripted tasks act in a group. -/
def conduct : Conduct Actor Notes where
  cancelled w := w.cancelled
  cancel w := { w with cancelled := true }
  resume := Actor.resume
  wake := id

/-- A group of tasks that follow the scripts. -/
def cast (scripts : List Script) : Group Actor := .ofTasks (scripts.map (⟨·, .beginning⟩))

/-- Runs a group of scripted tasks, with at most `turns` moves. -/
def rehearse (turns : Nat) (scripts : List Script) (cancelled : Bool) :
    Option (Group Actor × Notes) :=
  drive (fun s => s.1.next?) (fun move s => s.1.step conduct move s.2) turns
    (cast scripts, ⟨[], cancelled⟩)

end Script

/-- A task that counts its turns and yields after each but the last; it may cancel the caller's
    token in one of them. -/
structure Count where
  -- How often it yields.
  yields : Nat
  -- The turn in which it cancels the token.
  cancelAt : Option Nat
  -- The turn it has come to.
  turn : Nat

namespace Count

/-- The turns counted, with the caller's token. -/
structure Tally where
  turns : List Nat
  cancelled : Bool

/-- A turn of a counting task. -/
def resume (c : Count) (w : Tally) : Turn Count (Except Error Nat) × Tally :=
  let w : Tally := ⟨w.turns ++ [c.turn], w.cancelled || c.cancelAt == some c.turn⟩
  if c.turn < c.yields then (.yielded { c with turn := c.turn + 1 }, w)
  else (.finished (.ok c.yields), w)

/-- Runs a counting task under its token, for at most `turns` turns. -/
def rehearse (turns : Nat) (c : Count) (cancelled : Bool) : Option (Except Error Nat × Tally) :=
  runAlone (fun (task : Bool × Count) w =>
      match guarded Tally.cancelled resume task.1 task.2 w with
      | (turn, w) => (turn.map (true, ·) id, w))
    id turns (false, c) ⟨[], cancelled⟩

end Count

end Fleet
