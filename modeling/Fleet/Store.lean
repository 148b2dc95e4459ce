import Fleet.Container.Error

/-!
# A container runtime in memory

A store answers every request the way a container engine does, without running
anything. Containers are kept in the order in which they came to be; names are
unique among those created or renamed here, which is what makes replacing a
container go by way of another name.

Every request is entered in the log before anything else happens, whatever
becomes of it. A failure can be laid in store for the next request of a kind;
it is used up by that request, and neither the refusal nor any other error
touches the containers.

Containers that were there from the start can be put in unchecked, so ids and
names may occur twice; a request on an id is about the first container with it.

Which ids new containers are given is not the store's business. They come from a
supply, one after the other.

## Main definitions

* `Container`: A container in the store.
* `Supply`: The ids that a store gives out.
* `Store`: The containers, the log and the failures to come.
* `Store.call`: Answering a request.
-/

namespace Fleet

/-- A container in the store. -/
structure Container where
  id : String
  name : String
  labels : Labels
  state : ContainerState
  -- The health status, if a health check is configured.
  health : Option Health
  -- Networks it was attached to, each with the further names it has there.
  networks : List (String × List String)
  -- What it was created from.
  origin : Blueprint
  deriving DecidableEq

/-- The entry of a container in a listing. -/
def Container.summary (c : Container) : Summary := ⟨c.id, c.name, c.labels, c.state⟩

/-- A container in detail. -/
def Container.details (c : Container) : Details := ⟨c.summary, c.health⟩

/-- Ends a container; one that is not running stays as it is. -/
def Container.stopped (c : Container) : Container :=
  if c.state.isRunning then { c with state := .exited } else c

/-- Ids to be given out. -/
structure Supply where
  -- The ids in their order, counted from one.
  nth : Nat → String
  -- How many have been given out.
  given : Nat

/-- The id that is given out next. -/
def Supply.next (supply : Supply) : String := supply.nth (supply.given + 1)

/-- The supply after some more ids have been given out. -/
def Supply.advance (supply : Supply) (n : Nat) : Supply :=
  { supply with given := supply.given + n }

/-- A container runtime in memory. -/
structure Store where
  -- The containers, in the order in which they came to be.
  containers : List Container
  -- The requests so far.
  log : List Request
  -- Failures laid in store, by kind of request.
  pending : Verb → Option String
  -- The health status that a new container with a health check begins with.
  healthOnCreate : Health
  -- The ids that new containers are given.
  supply : Supply

namespace Store

/-- A store without containers, with the ids that it will give out. -/
def blank (nth : Nat → String) : Store := ⟨[], [], fun _ => none, .healthy, ⟨nth, 0⟩⟩

/-- A number in a text of sixty-four characters. -/
def freshId (n : Nat) : String :=
  let digits := Nat.toDigits 10 n
  String.ofList
    ("new".toList ++ List.replicate (9 - digits.length) '0' ++ digits ++ List.replicate 52 '0')

/-- A store without containers that numbers the ids it gives out. -/
def empty : Store := blank freshId

/-- The first container with an id. -/
def container? (s : Store) (id : String) : Option Container := s.containers.find? (·.id = id)

/-- The requests so far that may have changed something. -/
def mutations (s : Store) : List Request := s.log.filter (·.isMutation)

/-- Changes the first container with an id. -/
def changeFirst (id : String) (change : Container → Container) : List Container → List Container
  | [] => []
  | c :: rest => if c.id = id then change c :: rest else c :: changeFirst id change rest

/-! ### Preparations -/

/-- Adds a container as it is. -/
def seed (s : Store) (c : Container) : Store := { s with containers := s.containers ++ [c] }

/-- Gives out an id. -/
def takeId (s : Store) : String × Store :=
  (s.supply.next, { s with supply := s.supply.advance 1 })

/-- Forgets the requests so far. -/
def clearLog (s : Store) : Store := { s with log := [] }

/-- Lays a failure in store for the next request of a kind, in place of one already there. -/
def failNext (s : Store) (verb : Verb) (reason : String) : Store :=
  { s with pending := fun v => if v = verb then some reason else s.pending v }

/-- Uses up the failure in store for a kind of request. -/
def usePending (s : Store) (verb : Verb) : Store :=
  { s with pending := fun v => if v = verb then none else s.pending v }

/-- Sets the health of the first container with an id. -/
def setHealth (s : Store) (id : String) (health : Option Health) : Store :=
  { s with containers := changeFirst id (fun c => { c with health }) s.containers }

/-- Sets the health of every container with the labels given. -/
def setHealthWhere (s : Store) (filter : LabelFilter) (health : Option Health) : Store :=
  { s with
    containers := s.containers.map fun c =>
      if filter.accepts c.labels then { c with health } else c }

/-! ### Requests -/

/-- The containers after a request on an id that changes one of them. -/
def change (s : Store) (id : String) (f : Container → Container) :
    Except RuntimeError Unit × Store :=
  match s.container? id with
  | none => (.error (.notFound id), s)
  | some _ => (.ok (), { s with containers := changeFirst id f s.containers })

/-- The health of a new container: none without a check, or with one that is turned off. -/
def firstHealth (s : Store) (blueprint : Blueprint) : Option Health :=
  match blueprint.healthcheck with
  | none => none
  | some check => if check.test.head? = some "NONE" then none else some s.healthOnCreate

/-- Creates a container, unless its name is taken. -/
def create (s : Store) (blueprint : Blueprint) : Except RuntimeError String × Store :=
  if s.containers.any (·.name = blueprint.name) then
    (.error (.refused .create (.nameInUse blueprint.name)), s)
  else
    let (id, s) := s.takeId
    let c : Container :=
      ⟨id, blueprint.name, blueprint.labels, .created, s.firstHealth blueprint, [], blueprint⟩
    (.ok id, s.seed c)

/-- Renames a container, unless another one has the name. -/
def rename (s : Store) (id name : String) : Except RuntimeError Unit × Store :=
  if s.containers.any fun c => c.name = name ∧ c.id ≠ id then
    (.error (.refused .rename (.nameInUse name)), s)
  else s.change id fun c => { c with name }

/-- Removes a container, unless it is running. -/
def remove (s : Store) (id : String) : Except RuntimeError Unit × Store :=
  match s.container? id with
  | none => (.error (.notFound id), s)
  | some c =>
    if c.state.isRunning then (.error (.refused .remove (.isRunning id)), s)
    else (.ok (), { s with containers := s.containers.eraseP (·.id = id) })

/-- Carries out a request. -/
def serve : (q : Request) → Store → Except RuntimeError q.Answer × Store
  | .list filter, s =>
    (.ok ((s.containers.filter fun c => filter.accepts c.labels).map (·.summary)), s)
  | .inspect id, s =>
    match s.container? id with
    | none => (.error (.notFound id), s)
    | some c => (.ok c.details, s)
  | .create blueprint, s => s.create blueprint
  | .start id, s => s.change id fun c => { c with state := .running }
  | .stop id _, s => s.change id (·.stopped)
  | .rename id name, s => s.rename id name
  | .remove id, s => s.remove id
  | .connect network id aliases, s =>
    s.change id fun c => { c with networks := c.networks ++ [(network, aliases)] }

/-- Enters a request in the log, and answers it. -/
def call (q : Request) (s : Store) : Except RuntimeError q.Answer × Store :=
  let s := { s with log := s.log ++ [q] }
  match s.pending q.verb with
  | some reason => (.error (.refused q.verb (.told reason)), s.usePending q.verb)
  | none => serve q s

end Store

end Fleet
