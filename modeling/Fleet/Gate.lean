import Fleet.Group
import Fleet.Labels

/-!
# Health gates

A service whose dependencies have to be healthy waits in front of a gate for
each of them. The gate polls: it lists the containers of the dependency and
inspects them one after the other. A container that is not healthy yet ends the
poll, and after a delay there is another; a container without a health check is
an error, since it could never report. The gate opens at the first poll that
finds every container healthy. It sets no limit to the number of polls.

The end of the work is noticed when a poll has not passed, before the delay and
during it. A delay that is already over leads to another poll all the same.

## Main definitions

* `Poll`: One poll.
* `Poll.resume`: A turn of a poll.
* `Gate`: A gate, polling or resting.
* `Gate.resume`: A turn of a gate.
* `Gate.conduct`: How gates act in a group.
-/

namespace Fleet

/-- One poll of a dependency, on its way. -/
inductive Poll
  -- Its containers are being listed.
  | listing (errand : Errand (List Summary))
  -- A container is being inspected, with others still to come.
  | inspecting (id : String) (errand : Errand Details) (rest : List String)

namespace Poll

variable {ρ : Type}

/-- A poll that has not begun. -/
def fresh : Poll := listing .due

/-- The answer the poll waits for arrives. -/
def wake : Poll → Poll
  | listing errand => listing errand.wake
  | inspecting id errand rest => inspecting id errand.wake rest

/-- What a container's health means for the poll: an error, not yet, or so far so good. -/
def verdict (dependency : String) : Option Health → Except Error Bool
  | none => .error (.noHealthcheck dependency)
  | some .healthy => .ok true
  | some _ => .ok false

/-- Inspects containers up to the first that is not healthy. -/
def inspectAll (E : Engine ρ) (dependency : String) (id : String) (errand : Errand Details) :
    List String → ρ → Turn Poll (Except Error Bool) × ρ
  | rest, w =>
    match Errand.resume E (.inspect id) errand w with
    | (.yielded errand, w) => (.yielded (inspecting id errand rest), w)
    | (.asleep errand, w) => (.asleep (inspecting id errand rest), w)
    | (.finished (.error cause), w) => (.finished (.error (.runtime cause)), w)
    | (.finished (.ok details), w) =>
      match verdict dependency details.health, rest with
      | .ok true, next :: rest => inspectAll E dependency next .due rest w
      | verdict, _ => (.finished verdict, w)

/-- A turn of a poll; it ends with whether every container is healthy. -/
def resume (E : Engine ρ) (project dependency : String) :
    Poll → ρ → Turn Poll (Except Error Bool) × ρ
  | listing errand, w =>
    match Errand.resume E (.list (Labels.serviceFilter project dependency)) errand w with
    | (.yielded errand, w) => (.yielded (listing errand), w)
    | (.asleep errand, w) => (.asleep (listing errand), w)
    | (.finished (.error cause), w) => (.finished (.error (.runtime cause)), w)
    | (.finished (.ok containers), w) =>
      match containers.map (·.id) with
      | [] => (.finished (.ok true), w)
      | id :: rest => inspectAll E dependency id .due rest w
  | inspecting id errand rest, w => inspectAll E dependency id errand rest w

end Poll

/-- A gate in front of a service. -/
inductive Gate
  -- A poll is on its way.
  | polling (poll : Poll)
  -- The last poll did not pass; whether the delay after it has elapsed.
  | resting (elapsed : Bool)

namespace Gate

variable {ρ : Type}

/-- A gate that has not polled. -/
def fresh : Gate := polling .fresh

/-- What the gate waits for happens: an answer arrives, or the delay is over. -/
def wake : Gate → Gate
  | polling poll => polling poll.wake
  | resting _ => resting true

/-- The shortest delay between polls, in nanoseconds. -/
def shortestDelay : Nat := 1000000

/-- The delay a gate keeps when asked for one, in nanoseconds. -/
def delay (nanoseconds : Nat) : Nat := max nanoseconds shortestDelay

/-- Takes a poll on. -/
def pollOn (E : Engine ρ) (project dependency : String) (poll : Poll) (s : Scope ρ) :
    Turn Gate (Except Error Unit) × Scope ρ :=
  match Poll.resume E project dependency poll s.world with
  | (.yielded poll, w) => (.yielded (polling poll), { s with world := w })
  | (.asleep poll, w) => (.asleep (polling poll), { s with world := w })
  | (.finished (.error error), w) => (.finished (.error error), { s with world := w })
  | (.finished (.ok true), w) => (.finished (.ok ()), { s with world := w })
  | (.finished (.ok false), w) =>
    if s.tripped || E.cancelled w then (.finished (.error .cancelled), { s with world := w })
    else (.asleep (resting false), { s with world := w })

/-- A turn of a gate. -/
def resume (E : Engine ρ) (project dependency : String) :
    Gate → Scope ρ → Turn Gate (Except Error Unit) × Scope ρ
  | polling poll, s => pollOn E project dependency poll s
  | resting true, s => pollOn E project dependency .fresh s
  | resting false, s =>
    if s.tripped || E.cancelled s.world then (.finished (.error .cancelled), s)
    else (.asleep (resting false), s)

/-- A gate that waits for one dependency. -/
structure Watch where
  -- The service waited for.
  dependency : String
  -- Where the gate stands.
  gate : Gate

/-- A gate that has not begun to wait for a dependency. -/
def Watch.fresh (dependency : String) : Watch := ⟨dependency, Gate.fresh⟩

/-- A turn of a gate with its dependency. -/
def Watch.resume (E : Engine ρ) (project : String) (watch : Watch) (s : Scope ρ) :
    Turn Watch (Except Error Unit) × Scope ρ :=
  match Gate.resume E project watch.dependency watch.gate s with
  | (turn, s) => (turn.map (⟨watch.dependency, ·⟩) id, s)

/-- How gates act in a group. -/
def conduct (E : Engine ρ) (project : String) : Conduct Watch ρ where
  cancelled := E.cancelled
  cancel := E.cancel
  resume := Watch.resume E project
  wake watch := { watch with gate := watch.gate.wake }

end Gate

end Fleet
