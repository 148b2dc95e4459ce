import Fleet.Engine
import Fleet.Labels
import Fleet.Store

/-!
# Drills

A drill is a store with things set to happen to it. Every task gives up a fixed
number of turns before each of its requests, so that tasks beside each other
take turns request by request, and an incident can be arranged for the moment
just before a certain request is carried out: a failure, a change of health, or
the end of the work.

## Main definitions

* `Incident`: Something arranged to happen once.
* `Drill`: A store with its incidents and the caller's token.
* `Drill.engine`: The engine a drill is.
-/

namespace Fleet

/-- What can be arranged to happen. -/
inductive Happening
  -- The next request of a kind fails.
  | fail (verb : Verb) (reason : String)
  -- A container's health changes.
  | setHealth (id : String) (health : Option Health)
  -- The health of every container with the labels given changes.
  | setHealthWhere (filter : LabelFilter) (health : Option Health)
  -- The caller puts an end to the work.
  | cancel

/-- Something arranged to happen once, just before a certain request. -/
structure Incident where
  -- The kind of requests counted.
  verb : Verb
  -- Only listings of this service are counted.
  service : Option String
  -- How many such requests are left, the one it happens before included.
  left : Nat
  happening : Happening

/-- Whether an incident counts a request. -/
def Incident.counts (incident : Incident) (q : Request) : Bool :=
  q.verb = incident.verb &&
    match incident.service, q with
    | none, _ => true
    | some service, .list filter => filter.pairs.contains (Labels.serviceKey, service)
    | some _, _ => false

/-- A store with things set to happen to it. -/
structure Drill where
  store : Store
  -- The caller has put an end to the work.
  cancelled : Bool
  -- Turns given up before each request.
  pauses : Nat
  -- What is still to happen, in the order it was arranged.
  incidents : List Incident

namespace Drill

/-- A drill on an empty store. -/
def fresh (pauses : Nat) : Drill := ⟨.empty, false, pauses, []⟩

/-- Lets something happen. -/
def meet (d : Drill) : Happening → Drill
  | .fail verb reason => { d with store := d.store.failNext verb reason }
  | .setHealth id health => { d with store := d.store.setHealth id health }
  | .setHealthWhere filter health => { d with store := d.store.setHealthWhere filter health }
  | .cancel => { d with cancelled := true }

/-- Counts a request for one incident, and lets it happen if its moment has come. -/
def count (q : Request) (d : Drill) (incident : Incident) : Drill :=
  if !incident.counts q then { d with incidents := d.incidents ++ [incident] }
  else if incident.left ≤ 1 then d.meet incident.happening
  else { d with incidents := d.incidents ++ [{ incident with left := incident.left - 1 }] }

/-- Lets everything happen that is due before a request. -/
def before (q : Request) (d : Drill) : Drill :=
  d.incidents.foldl (count q) { d with incidents := [] }

/-- Carries out a request. -/
def call (q : Request) (d : Drill) : Except RuntimeError q.Answer × Drill :=
  let d := d.before q
  match d.store.call q with
  | (answer, store) => (answer, { d with store })

/-- The engine a drill is. Answers are there at once. -/
def engine : Engine Drill where
  call := call
  pauses d := d.pauses
  slow _ _ := false
  cancelled d := d.cancelled
  cancel d := { d with cancelled := true }

end Drill

end Fleet
