import Fleet.Binary64.Basic
import Fleet.Container.Basic

/-!
# Requests to a container runtime

Everything that is asked of a container runtime is a `Request`, and what it
answers is the type `Request.Answer` of that request. A runtime is then one
function, and a statement about all its operations quantifies over one type.

## Main definitions

* `Limits`, `Healthcheck`: Parts of the description of a container.
* `Blueprint`: What a container is created from.
* `Request`, `Request.Answer`: A call of the runtime, and the type of its answer.
* `Verb`: The kind of a request.
-/

namespace Fleet

/-- Limits on what a container may use. -/
structure Limits where
  -- Number of processors.
  cpus : Option Binary64
  -- Amount of memory, as the runtime spells it.
  memory : Option String
  deriving DecidableEq

/-- A check the runtime runs inside the container. -/
structure Healthcheck where
  -- The command, its first word saying how it is to be run.
  test : List String
  -- Seconds between checks.
  interval : Option UInt64
  -- Seconds after which a check counts as hung.
  timeout : Option UInt64
  -- Failures in a row that make the container unhealthy.
  retries : Option UInt32
  deriving DecidableEq

/-- What a container is created from. -/
structure Blueprint where
  name : String
  image : String
  -- Words of the command, or none for the image's own.
  command : List String
  environment : Dict String
  -- Mounts, each as source, target and perhaps a mode.
  volumes : List String
  labels : Labels
  resources : Option Limits
  healthcheck : Option Healthcheck
  deriving DecidableEq

/-- The blueprint of nothing in particular. -/
def Blueprint.blank : Blueprint := ⟨"", "", [], Dict.empty, [], Dict.empty, none, none⟩

/-- The kind of a request. -/
inductive Verb
  | list
  | inspect
  | create
  | start
  | stop
  | rename
  | remove
  | connect
  deriving DecidableEq

/-- What a kind of request is called in a message. -/
def Verb.title : Verb → String
  | list => "list"
  | inspect => "inspect"
  | create => "create"
  | start => "start"
  | stop => "stop"
  | rename => "rename"
  | remove => "remove"
  | connect => "network connect"

/-- A call of a container runtime. -/
inductive Request
  -- The containers with the labels given.
  | list (filter : LabelFilter)
  -- One container in detail.
  | inspect (id : String)
  -- A new container, not yet started.
  | create (blueprint : Blueprint)
  | start (id : String)
  -- Ends a container, with the grace given in milliseconds or the runtime's own.
  | stop (id : String) (grace : Option Nat)
  | rename (id : String) (name : String)
  | remove (id : String)
  -- Attaches a container to a network, under further names.
  | connect (network : String) (id : String) (aliases : List String)
  deriving DecidableEq

namespace Request

/-- What a request is answered with when it succeeds; a creation gives the new id. -/
abbrev Answer : Request → Type
  | list _ => List Summary
  | inspect _ => Details
  | create _ => String
  | _ => Unit

/-- The kind of a request. -/
def verb : Request → Verb
  | list _ => .list
  | inspect _ => .inspect
  | create _ => .create
  | start _ => .start
  | stop .. => .stop
  | rename .. => .rename
  | remove _ => .remove
  | connect .. => .connect

/-- Whether the request may change anything. -/
def isMutation : Request → Bool
  | list _ | inspect _ => false
  | _ => true

/-- The id of the container a request is about, if it is about one that exists. -/
def target? : Request → Option String
  | list _ | create _ => none
  | inspect id | start id | stop id _ | rename id _ | remove id | connect _ id _ => some id

end Request

end Fleet
