import Fleet.Container.Request
import Fleet.Json.Basic
import Fleet.Source

/-!
# Services and projects

A service describes the containers wanted for one part of a project, and a
project is a list of services with a name. Both can be read from any notation
that answers the questions of a `Source`, and written as JSON.

What is written leaves out the fields that are empty or absent, the name, the
image and the scale apart. Reading supplies exactly those again, so a service
survives being written and read.

## Main definitions

* `Condition`: What a dependency has to have reached.
* `Service`, `Project`: The descriptions.
* `Service.read`, `Project.read`: Reading them from a notation.
* `Service.toJson`, `Project.toJson`: Writing them.
* `Service.desiredScale`: Number of containers wanted.
-/

namespace Fleet

/-- What a dependency has to have reached before the service that depends on it. -/
inductive Condition
  -- Its own turn is over.
  | started
  -- All its containers report that they are healthy.
  | healthy
  -- It ran to its end.
  | completed
  deriving DecidableEq

/-- A lifecycle declared for the containers of a service. -/
inductive Strategy
  -- Every container is replaced, whatever its fingerprint.
  | forceRecreate
  deriving DecidableEq

/-- Settings of a deployment. -/
structure Deployment where
  -- Number of containers, stronger than the scale.
  replicas : Option UInt32
  deriving DecidableEq

/-- The description of one service. -/
structure Service where
  -- The name, unique in its project.
  name : String
  image : String
  command : List String
  environment : Dict String
  volumes : List String
  -- Networks of the project to attach to.
  networks : List String
  -- Services this one depends on, with what each has to have reached.
  dependsOn : Dict Condition
  healthcheck : Option Healthcheck
  resources : Option Limits
  -- Number of containers, zero meaning that none was given.
  scale : UInt32
  deploy : Option Deployment
  lifecycle : Option Strategy
  deriving DecidableEq

/-- Services under one name, in the order they were declared. -/
structure Project where
  name : String
  services : List Service
  deriving DecidableEq

namespace Service

/-- A service of which only the name and the image are given. -/
def plain (name image : String) : Service :=
  ⟨name, image, [], Dict.empty, [], [], Dict.empty, none, none, 0, none, none⟩

/-- Names of the services this one depends on. -/
def dependencies (service : Service) : List String := service.dependsOn.keys

/-- Whether this service depends on another. -/
def needs (service : Service) (name : String) : Bool := service.dependsOn.contains name

/-- Names of the services that have to be healthy before this one's turn. -/
def healthDependencies (service : Service) : List String :=
  (service.dependsOn.entries.filter fun entry => entry.2 = .healthy).map (·.1)

/-- Number of containers wanted: the deployment's, even if it is zero, else the scale unless
    it is zero, else one. -/
def desiredScale (service : Service) : Nat :=
  match service.deploy.bind (·.replicas) with
  | some replicas => replicas.toNat
  | none => if service.scale = 0 then 1 else service.scale.toNat

end Service

namespace Project

/-- The first service with a name. -/
def service? (project : Project) (name : String) : Option Service :=
  project.services.find? (·.name = name)

/-- The services that depend on the one named. -/
def dependentsOf (project : Project) (name : String) : List Service :=
  project.services.filter (·.needs name)

end Project

/-! ### Reading -/

section Read

variable {m : Type → Type} {σ : Type} [Monad m] [MonadExcept Unit m] (S : Source m σ)

/-- Reads limits. -/
def Limits.read (value : σ) : m Limits := do
  let fields ← S.fields ["cpus", "memory"] value
  let cpus ← S.nullable fields "cpus" S.number
  let memory ← S.nullable fields "memory" S.text
  return ⟨cpus, memory⟩

/-- Reads a health check. -/
def Healthcheck.read (value : σ) : m Healthcheck := do
  let fields ← S.fields ["test", "interval", "timeout", "retries"] value
  let test ← Source.required fields "test" S.texts
  let interval ← S.nullable fields "interval" S.natural64
  let timeout ← S.nullable fields "timeout" S.natural64
  let retries ← S.nullable fields "retries" S.natural32
  return ⟨test, interval, timeout, retries⟩

/-- Reads what a dependency has to have reached. -/
def Condition.read (value : σ) : m Condition := do
  match ← S.choice ["service_started", "service_healthy", "service_completed_successfully"]
    value with
  | "service_started" => return started
  | "service_healthy" => return healthy
  | _ => return completed

/-- Reads a dependency, a record with one field. -/
def Condition.readDependency (value : σ) : m Condition := do
  let fields ← S.fields ["condition"] value
  Source.optional fields "condition" (Condition.read S) started

/-- Reads a lifecycle. -/
def Strategy.read (value : σ) : m Strategy := do
  let _ ← S.choice ["force_recreate"] value
  return forceRecreate

/-- Reads settings of a deployment. -/
def Deployment.read (value : σ) : m Deployment := do
  let fields ← S.fields ["replicas"] value
  return ⟨← S.nullable fields "replicas" S.natural32⟩

/-- The fields of a service in the order they are declared. -/
def Service.fieldNames : List String :=
  ["name", "image", "command", "environment", "volumes", "networks", "depends_on", "healthcheck",
    "resources", "scale", "deploy", "x-lifecycle"]

/-- Reads a service. -/
def Service.read (value : σ) : m Service := do
  let fields ← S.fields fieldNames value
  let name ← Source.required fields "name" S.text
  let image ← Source.optional fields "image" S.text ""
  let command ← Source.optional fields "command" S.texts []
  let environment ← Source.optional fields "environment" (S.dict S.text) Dict.empty
  let volumes ← Source.optional fields "volumes" S.texts []
  let networks ← Source.optional fields "networks" S.texts []
  let dependsOn ←
    Source.optional fields "depends_on" (S.dict (Condition.readDependency S)) Dict.empty
  let healthcheck ← S.nullable fields "healthcheck" (Healthcheck.read S)
  let resources ← S.nullable fields "resources" (Limits.read S)
  let scale ← Source.optional fields "scale" S.natural32 0
  let deploy ← S.nullable fields "deploy" (Deployment.read S)
  let lifecycle ← S.nullable fields "x-lifecycle" (Strategy.read S)
  return ⟨name, image, command, environment, volumes, networks, dependsOn, healthcheck,
    resources, scale, deploy, lifecycle⟩

/-- Reads a project. -/
def Project.read (value : σ) : m Project := do
  let fields ← S.fields ["name", "services"] value
  let name ← Source.required fields "name" S.text
  let services ← Source.optional fields "services" (S.listOf (Service.read S)) []
  return ⟨name, services⟩

end Read

/-! ### Writing -/

/-- A field that is always written. -/
def Json.always (name : String) (value : Json) : List (String × Json) := [(name, value)]

/-- A field that is left out if there is no value. -/
def Json.whenSome {α : Type} (name : String) (write : α → Json) :
    Option α → List (String × Json)
  | none => []
  | some value => [(name, write value)]

/-- A list of texts that is left out if it is empty. -/
def Json.whenTexts (name : String) (items : List String) : List (String × Json) :=
  if items.isEmpty then [] else [(name, .texts items)]

/-- A dictionary as an object. -/
def Json.ofDict {α : Type} (write : α → Json) (dict : Dict α) : Json :=
  .object (dict.entries.map fun entry => (entry.1, write entry.2))

/-- A dictionary that is left out if it is empty. -/
def Json.whenDict {α : Type} (name : String) (write : α → Json) (dict : Dict α) :
    List (String × Json) :=
  if dict.isEmpty then [] else [(name, .ofDict write dict)]

/-- A natural number of 32 bits. -/
def Json.ofUInt32 (n : UInt32) : Json := .integer n.toNat

/-- A natural number of 64 bits. -/
def Json.ofUInt64 (n : UInt64) : Json := .integer n.toNat

/-- Writes limits. -/
def Limits.toJson (limits : Limits) : Json :=
  .object (Json.whenSome "cpus" .real limits.cpus ++ Json.whenSome "memory" .text limits.memory)

/-- Writes a health check. -/
def Healthcheck.toJson (check : Healthcheck) : Json :=
  .object (Json.always "test" (.texts check.test) ++
    Json.whenSome "interval" .ofUInt64 check.interval ++
    Json.whenSome "timeout" .ofUInt64 check.timeout ++
    Json.whenSome "retries" .ofUInt32 check.retries)

/-- The name of a condition. -/
def Condition.name : Condition → String
  | started => "service_started"
  | healthy => "service_healthy"
  | completed => "service_completed_successfully"

/-- Writes a dependency, a record with one field. -/
def Condition.toJson (condition : Condition) : Json :=
  .object [("condition", .text condition.name)]

/-- Writes a lifecycle. -/
def Strategy.toJson : Strategy → Json
  | forceRecreate => .text "force_recreate"

/-- Writes settings of a deployment. -/
def Deployment.toJson (deployment : Deployment) : Json :=
  .object (Json.whenSome "replicas" .ofUInt32 deployment.replicas)

/-- Writes a service. -/
def Service.toJson (service : Service) : Json :=
  .object (Json.always "name" (.text service.name) ++
    Json.always "image" (.text service.image) ++
    Json.whenTexts "command" service.command ++
    Json.whenDict "environment" .text service.environment ++
    Json.whenTexts "volumes" service.volumes ++
    Json.whenTexts "networks" service.networks ++
    Json.whenDict "depends_on" Condition.toJson service.dependsOn ++
    Json.whenSome "healthcheck" Healthcheck.toJson service.healthcheck ++
    Json.whenSome "resources" Limits.toJson service.resources ++
    Json.always "scale" (.ofUInt32 service.scale) ++
    Json.whenSome "deploy" Deployment.toJson service.deploy ++
    Json.whenSome "x-lifecycle" Strategy.toJson service.lifecycle)

/-- Writes a project. -/
def Project.toJson (project : Project) : Json :=
  .object [("name", .text project.name), ("services", .list (project.services.map (·.toJson)))]

end Fleet
