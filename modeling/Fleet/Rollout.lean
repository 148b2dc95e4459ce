import Fleet.Order
import Fleet.Pass

/-!
# Rollouts

A rollout brings all services of a project in line, one pass after the other,
each service after everything it depends on. It begins with no service marked,
and what one pass marks holds for the passes after it. The first pass that
fails ends the rollout.

## Main definitions

* `Rollout`: A rollout with the pass it has come to.
* `Rollout.start`: A rollout at its beginning.
* `Rollout.step`, `Rollout.next?`: What comes of a move, and the move to be made.
* `Rollout.run`: Running it.
-/

namespace Fleet

/-- A rollout on its way. -/
inductive Rollout
  -- A service has its pass, with others still to come.
  | passing (pass : Pass) (rest : List Service)
  | ended (result : Except Error Unit)

namespace Rollout

variable {ρ : Type}

/-- Goes on to the next service, if there is one. -/
def proceed (project : Project) (grace : Option Nat) (marks : Marks) : List Service → Rollout
  | [] => ended (.ok ())
  | service :: rest => passing (.start project service grace marks) rest

/-- A rollout at its beginning. -/
def start (project : Project) (grace : Option Nat) : Rollout :=
  match project.inDependencyOrder with
  | .error cause => ended (.error (.settings cause))
  | .ok services => proceed project grace .none services

/-- Goes on once a pass is at its end. -/
def afterPass (pass : Pass) (rest : List Service) (site : Site ρ) : Rollout × Site ρ :=
  match pass.result? with
  | none => (passing pass rest, site)
  | some (.error error) => (ended (.error error), site)
  | some (.ok ()) =>
    (proceed pass.project pass.grace (pass.marksAfter site) rest, { site with recreated := false })

/-- What comes of a move. -/
def step (E : Engine ρ) (move : Move) (rollout : Rollout) (site : Site ρ) : Rollout × Site ρ :=
  match rollout with
  | passing pass rest =>
    match pass.step E move site with
    | (pass, site) => afterPass pass rest site
  | ended _ =>
    match move with
    | .cancel => (rollout, { site with world := E.cancel site.world })
    | _ => (rollout, site)

/-- The move to be made next, none at the end. -/
def next? (E : Engine ρ) (rollout : Rollout) (site : Site ρ) : Option Move :=
  match rollout with
  | passing pass _ => pass.next? E site
  | ended _ => none

/-- The result of a rollout, once it is at its end. -/
def result? : Rollout → Option (Except Error Unit)
  | ended result => some result
  | passing .. => none

/-- Runs a rollout, with at most `turns` moves: the result and the world after it. -/
def run (E : Engine ρ) (turns : Nat) (rollout : Rollout) (site : Site ρ) :
    Option (Except Error Unit × Site ρ) := do
  let (rollout, site) ← drive (fun s : Rollout × Site ρ => s.1.next? E s.2)
    (fun move s => s.1.step E move s.2) turns (rollout, { site with recreated := false })
  return (← rollout.result?, site)

end Rollout

end Fleet
