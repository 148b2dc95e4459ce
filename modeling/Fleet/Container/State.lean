import Fleet.Text.Space

/-!
# States and health of a container

What a container runtime says about a container, in its own words: a state such
as `running`, and a health status where a health check is configured. Case and
surrounding blanks do not matter. A state that is not known is kept as it was
said; a health status that is not known counts as none.

## Main definitions

* `ContainerState`: The state of a container.
* `Health`: The health status of a container that is checked.
-/

namespace Fleet

/-- The state of a container. -/
inductive ContainerState
  -- Created, and never started.
  | created
  | running
  | paused
  | restarting
  | exited
  -- Could not be stopped or removed.
  | dead
  -- Any other state, as the runtime calls it.
  | other (name : String)
  deriving DecidableEq, Inhabited

namespace ContainerState

/-- Reads a runtime's word for a state. -/
def parse (word : String) : ContainerState :=
  match Text.lowerAscii (Text.trim word) with
  | "created" => created
  | "running" => running
  | "paused" => paused
  | "restarting" => restarting
  | "exited" => exited
  | "dead" => dead
  | name => other name

/-- The word for a state. -/
def name : ContainerState → String
  | created => "created"
  | running => "running"
  | paused => "paused"
  | restarting => "restarting"
  | exited => "exited"
  | dead => "dead"
  | other name => name

/-- Whether the container is running. -/
def isRunning : ContainerState → Bool
  | running => true
  | _ => false

/-- Whether the state is one without a name of its own. -/
def isOther : ContainerState → Bool
  | other _ => true
  | _ => false

end ContainerState

/-- The health status of a container that is checked. -/
inductive Health
  -- No check has passed yet.
  | starting
  -- The last checks passed.
  | healthy
  -- More checks failed in a row than are allowed to.
  | unhealthy
  deriving DecidableEq

namespace Health

/-- Reads a runtime's word for a health status. -/
def parse? (word : String) : Option Health :=
  match Text.lowerAscii (Text.trim word) with
  | "starting" => some starting
  | "healthy" => some healthy
  | "unhealthy" => some unhealthy
  | _ => none

/-- The word for a health status. -/
def name : Health → String
  | starting => "starting"
  | healthy => "healthy"
  | unhealthy => "unhealthy"

end Health

end Fleet
