import Fleet.Docker.Arguments
import Fleet.Docker.Inspection
import Fleet.Engine
import Fleet.Launch
import Fleet.Text.Lines
import Fleet.Text.Search
import Fleet.Text.Space
import Fleet.Text.Utf8

/-!
# The docker client as a container runtime

A request is carried out by calling the docker client and reading what it
prints. If the client says that there is no such container, the request is
reported as being about one, named by the last word of the call.

A listing takes two calls, one for the ids and one to inspect them all. A
container can vanish in between; then each is inspected on its own, and the
ones that are gone are left out.

## Main definitions

* `Docker.Client`: The client program.
* `Docker.Client.run`: One call of the client.
* `Docker.Client.call`: Carrying out a request.
* `Docker.Host`, `Docker.Client.engine`: The client as an engine.
-/

namespace Fleet.Docker

/-- The client program. -/
structure Client where
  -- The name it is called by.
  program : String

namespace Client

variable {ρ : Type}

/-- The client as it is usually called. -/
def usual : Client := ⟨"docker"⟩

/-- Whether a complaint says that a container is not there. -/
def saysMissing (complaint : String) : Bool :=
  Text.contains complaint "No such container" || Text.contains complaint "No such object"

/-- What a call of the client comes to. -/
def verdict (client : Client) (arguments : List String) :
    Except LaunchError Outcome → Except RuntimeError String
  | .error cause => .error (.launch (client.program ++ " " ++ spaced arguments) cause)
  | .ok outcome =>
    if outcome.succeeded then .ok (Text.decodeLossy outcome.stdout)
    else
      let complaint := Text.trim (Text.decodeLossy outcome.stderr)
      if saysMissing complaint then .error (.notFound (arguments.getLastD ""))
      else .error (.failed (client.program ++ " " ++ spaced arguments) outcome.code complaint)

/-- Calls the client, and gives what it printed. -/
def run (L : Launcher ρ) (client : Client) (arguments : List String) (w : ρ) :
    Except RuntimeError String × ρ :=
  match L client.program arguments w with
  | (result, w) => (client.verdict arguments result, w)

/-- Inspects containers in one call, none of them without a call. -/
def inspectMany (L : Launcher ρ) (client : Client) (ids : List String) (w : ρ) :
    Except RuntimeError (List Details) × ρ :=
  if ids.isEmpty then (.ok [], w)
  else
    match client.run L (inspectArguments ids) w with
    | (.error cause, w) => (.error cause, w)
    | (.ok output, w) =>
      match readInspection output with
      | some found => (.ok found, w)
      | none => (.error .unreadable, w)

/-- Inspects containers one by one, leaving out those that are gone. -/
def inspectEach (L : Launcher ρ) (client : Client) :
    List String → ρ → Except RuntimeError (List Details) × ρ
  | [], w => (.ok [], w)
  | id :: rest, w =>
    match client.inspectMany L [id] w with
    | (.error (.notFound _), w) => inspectEach L client rest w
    | (.error cause, w) => (.error cause, w)
    | (.ok found, w) =>
      match inspectEach L client rest w with
      | (.ok others, w) => (.ok (found ++ others), w)
      | (.error cause, w) => (.error cause, w)

/-- The ids that a listing printed, one on a line. -/
def listedIds (output : String) : List String :=
  ((Text.lines output).map Text.trim).filter (!·.isEmpty)

/-- Lists containers. -/
def list (L : Launcher ρ) (client : Client) (filter : LabelFilter) (w : ρ) :
    Except RuntimeError (List Summary) × ρ :=
  match client.run L (listArguments filter) w with
  | (.error cause, w) => (.error cause, w)
  | (.ok output, w) =>
    let ids := listedIds output
    let (found, w) :=
      match client.inspectMany L ids w with
      | (.error (.notFound _), w) => client.inspectEach L ids w
      | result => result
    (found.map fun details => details.map (·.toSummary), w)

/-- Inspects one container. -/
def inspect (L : Launcher ρ) (client : Client) (id : String) (w : ρ) :
    Except RuntimeError Details × ρ :=
  match client.inspectMany L [id] w with
  | (.error cause, w) => (.error cause, w)
  | (.ok [], w) => (.error (.notFound id), w)
  | (.ok (details :: _), w) => (.ok details, w)

/-- Calls the client for what it does and not for what it prints. -/
def order (L : Launcher ρ) (client : Client) (arguments : List String) (w : ρ) :
    Except RuntimeError Unit × ρ :=
  match client.run L arguments w with
  | (result, w) => (result.map fun _ => (), w)

/-- Carries out a request. -/
def call (L : Launcher ρ) (client : Client) :
    (q : Request) → ρ → Except RuntimeError q.Answer × ρ
  | .list filter, w => client.list L filter w
  | .inspect id, w => client.inspect L id w
  | .create blueprint, w =>
    match client.run L (arguments (.create blueprint)) w with
    | (result, w) => (result.map Text.trim, w)
  | .start id, w => client.order L (arguments (.start id)) w
  | .stop id grace, w => client.order L (arguments (.stop id grace)) w
  | .rename id name, w => client.order L (arguments (.rename id name)) w
  | .remove id, w => client.order L (arguments (.remove id)) w
  | .connect network id aliases, w => client.order L (arguments (.connect network id aliases)) w

end Client

/-- The world of a client, with what an engine has to know of it. -/
structure Host (ρ : Type) where
  world : ρ
  -- How many programs have been started.
  launches : Nat
  -- The caller has put an end to the work.
  cancelled : Bool

/-- Counts the programs that are started. -/
def Host.launcher {ρ : Type} (L : Launcher ρ) : Launcher (Host ρ) := fun program arguments h =>
  match L program arguments h.world with
  | (.ok outcome, w) => (.ok outcome, { h with world := w, launches := h.launches + 1 })
  | (.error cause, w) => (.error cause, { h with world := w })

/-- The client as an engine. A request is carried out at once, and its answer takes a while if a
    program had to be started for it. -/
def Client.engine {ρ : Type} (L : Launcher ρ) (client : Client) : Engine (Host ρ) where
  call := client.call (Host.launcher L)
  pauses _ := 0
  slow before after := before.launches != after.launches
  cancelled h := h.cancelled
  cancel h := { h with cancelled := true }

end Fleet.Docker
