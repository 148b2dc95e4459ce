import Fleet.Fingerprint
import Fleet.Group
import Fleet.Marks
import Fleet.Numbering
import Fleet.Progress

/-!
# Operations on single containers

The four things a pass does to a container, each as the list of requests it
makes. Nothing is tried twice: the first request that fails ends the operation,
and what was done up to then stays done.

A replacement keeps the old container until the new one runs. The old one is
stopped and renamed out of the way, the new one created, attached and started
under the name that has become free, and only then is the old one removed. An
old container that already has the name to get out of the way with was left
behind by an earlier replacement, and is not renamed again.

The number of a container to be replaced is read before anything is said or
done, so a label without a number costs nothing.

## Main definitions

* `Step`: One request of an operation.
* `Operation`: What is to be done to a container.
* `Operation.create`, `Operation.recreate`, `Operation.restart`, `Operation.remove`: The four.
* `Site`: The world of an operation.
* `Job`, `Job.resume`: An operation on its way, and a turn of it.
-/

namespace Fleet

/-- One request of an operation. -/
inductive Step
  -- A request known beforehand.
  | fixed (request : Request)
  -- Attaching the container just created to a network.
  | attach (network : String) (aliases : List String)
  -- Starting the container just created.
  | launch
  deriving DecidableEq

/-- The request of a step, given the id of the container just created. -/
def Step.request (created : String) : Step → Request
  | fixed request => request
  | attach network aliases => .connect network created aliases
  | launch => .start created

/-- The kind of an operation. -/
inductive OperationKind
  | create
  | recreate
  | restart
  | remove
  deriving DecidableEq

/-- What is said when an operation begins. -/
def OperationKind.beginning : OperationKind → String
  | create => "Create"
  | recreate => "Recreate"
  | restart => "Restart"
  | remove => "Remove"

/-- What is said when an operation is done. -/
def OperationKind.ending : OperationKind → String
  | create => "Created"
  | recreate => "Recreated"
  | restart => "Restarted"
  | remove => "Removed"

/-- What a container of a service is created from. -/
def Blueprint.ofService (project : String) (service : Service) (name : String) (number : Nat) :
    Blueprint where
  name := name
  image := service.image
  command := service.command
  environment := service.environment
  volumes := service.volumes
  labels := Labels.ofInstance project service.name number service.fingerprint
  resources := service.resources
  healthcheck := service.healthcheck

/-- Something to be done to a container of a service. -/
structure Operation where
  -- The service, for progress.
  service : String
  kind : OperationKind
  -- The steps, or why they are not known.
  steps : Except NumberError (List Step)

namespace Operation

/-- Creates a container, attaches it to the service's networks and starts it. -/
def bringUp (project : String) (service : Service) (name : String) (number : Nat) : List Step :=
  .fixed (.create (Blueprint.ofService project service name number)) ::
    service.networks.map (fun network => .attach (networkName project network) [service.name]) ++
    [.launch]

/-- A new container. -/
def create (project : String) (service : Service) (name : String) (number : Nat) : Operation :=
  ⟨service.name, .create, .ok (bringUp project service name number)⟩

/-- The steps that replace a container by one with its number. -/
def replacement (project : String) (service : Service) (grace : Option Nat)
    (container : Summary) (number : Nat) : List Step :=
  let name := containerName project service.name number
  let parked := parkedName container.id name
  .fixed (.stop container.id grace) ::
    (if container.name = parked then [] else [.fixed (.rename container.id parked)]) ++
    bringUp project service name number ++
    [.fixed (.remove container.id)]

/-- A container in place of an old one. -/
def recreate (project : String) (service : Service) (grace : Option Nat)
    (container : Summary) : Operation :=
  ⟨service.name, .recreate,
    (Numbering.numberOf container).map (replacement project service grace container)⟩

/-- A container that has stopped, started as it is. -/
def restart (service : Service) (container : Summary) : Operation :=
  ⟨service.name, .restart, .ok [.fixed (.start container.id)]⟩

/-- A container that is no longer wanted. -/
def remove (service : Service) (grace : Option Nat) (container : Summary) : Operation :=
  ⟨service.name, .remove,
    .ok [.fixed (.stop container.id grace), .fixed (.remove container.id)]⟩

/-- An event of the operation. -/
def event (op : Operation) (status : Status) (text : String) : Event :=
  .ofService op.service status text

end Operation

/-- The world of operations: what they run against, who watches, and whether one of them has
    replaced a container. -/
structure Site (ρ : Type) where
  world : ρ
  channel : Channel
  -- A replacement was completed.
  recreated : Bool

namespace Site

variable {ρ : Type}

/-- Sends an event. -/
def report (s : Site ρ) (event : Event) : Site ρ := { s with channel := s.channel.send event }

/-- Reports that an operation is done. -/
def complete (s : Site ρ) (op : Operation) : Site ρ :=
  let s := s.report (op.event .done op.kind.ending)
  if op.kind = .recreate then { s with recreated := true } else s

/-- Reports that an operation failed. -/
def fail (s : Site ρ) (op : Operation) : Site ρ := s.report (op.event .failed "Error")

end Site

/-- Where an operation stands. -/
inductive Stand
  -- It has not begun.
  | fresh
  -- A request is on its way, with further steps to come.
  | underway (created : String) (request : Request) (errand : Errand request.Answer)
      (rest : List Step)

namespace Stand

variable {ρ : Type}

/-- The id of the container just created, after the answer to a request. -/
def createdAfter (created : String) : (request : Request) → request.Answer → String
  | .create _, id => id
  | _, _ => created

/-- Takes the steps one after the other as far as this turn goes. -/
def takeSteps (E : Engine ρ) (created : String) :
    List Step → ρ → Turn Stand (Except RuntimeError Unit) × ρ
  | [], w => (.finished (.ok ()), w)
  | step :: rest, w =>
    match Errand.resume E (step.request created) .due w with
    | (.yielded errand, w) => (.yielded (underway created _ errand rest), w)
    | (.asleep errand, w) => (.asleep (underway created _ errand rest), w)
    | (.finished (.error cause), w) => (.finished (.error cause), w)
    | (.finished (.ok answer), w) => takeSteps E (createdAfter created _ answer) rest w

/-- Takes the request that is on its way on, and then the further steps. -/
def takeOn (E : Engine ρ) (created : String) (request : Request)
    (errand : Errand request.Answer) (rest : List Step) (w : ρ) :
    Turn Stand (Except RuntimeError Unit) × ρ :=
  match Errand.resume E request errand w with
  | (.yielded errand, w) => (.yielded (underway created request errand rest), w)
  | (.asleep errand, w) => (.asleep (underway created request errand rest), w)
  | (.finished (.error cause), w) => (.finished (.error cause), w)
  | (.finished (.ok answer), w) => takeSteps E (createdAfter created request answer) rest w

/-- The answer the operation waits for arrives. -/
def wake : Stand → Stand
  | fresh => fresh
  | underway created request errand rest => underway created request errand.wake rest

end Stand

/-- An operation on its way. -/
structure Job where
  operation : Operation
  stand : Stand

namespace Job

variable {ρ : Type}

/-- An operation that has not begun. -/
def fresh (op : Operation) : Job := ⟨op, .fresh⟩

/-- Reports what a turn has come to. -/
def conclude (op : Operation) (s : Site ρ) :
    Turn Stand (Except RuntimeError Unit) × ρ → Turn Job (Except Error Unit) × Site ρ
  | (.yielded stand, w) => (.yielded ⟨op, stand⟩, { s with world := w })
  | (.asleep stand, w) => (.asleep ⟨op, stand⟩, { s with world := w })
  | (.finished (.ok ()), w) => (.finished (.ok ()), { s with world := w }.complete op)
  | (.finished (.error cause), w) =>
    (.finished (.error (.runtime cause)), { s with world := w }.fail op)

/-- A turn of an operation. -/
def resume (E : Engine ρ) (job : Job) (s : Site ρ) :
    Turn Job (Except Error Unit) × Site ρ :=
  match job.stand, job.operation.steps with
  | .fresh, .error cause => (.finished (.error (.number cause)), s)
  | .fresh, .ok steps =>
    let s := s.report (job.operation.event .working job.operation.kind.beginning)
    conclude job.operation s (Stand.takeSteps E "" steps s.world)
  | .underway created request errand rest, _ =>
    conclude job.operation s (Stand.takeOn E created request errand rest s.world)

/-- The answer the operation waits for arrives. -/
def wake (job : Job) : Job := { job with stand := job.stand.wake }

/-- How operations act in a group. -/
def conduct (E : Engine ρ) : Conduct Job (Site ρ) where
  cancelled s := E.cancelled s.world
  cancel s := { s with world := E.cancel s.world }
  resume job scope :=
    match job.resume E scope.world with
    | (turn, site) => (turn, { scope with world := site })
  wake := wake

end Job

end Fleet
