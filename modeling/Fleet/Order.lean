import Fleet.Error
import Fleet.Service

/-!
# Dependency order

The services of a project, each after everything it depends on. A queue holds
the services whose dependencies have all been placed, in the order in which
they became ready, and every other service waits with the number of its
dependencies still open. Placing a service closes one of them for each service
that depends on it. A service that is still waiting when the queue has run dry
is on a circle, or behind one.

Only descriptions are ordered in which the names are distinct and every
dependency is declared; of several complaints the first of these comes first.

## Main definitions

* `Waiting`: A service with its open dependencies.
* `release`: Closing a dependency.
* `placeReady`: Emptying the queue.
* `Project.inDependencyOrder`: The order, or the complaint.
-/

namespace Fleet

/-- A service that waits for some of its dependencies. -/
structure Waiting where
  service : Service
  -- How many of its dependencies have not been placed.
  openCount : Nat

/-- Closes the dependency named: the services that became ready by it, and those that still
    wait, both in the order given. -/
def release (name : String) : List Waiting → List Service × List Waiting
  | [] => ([], [])
  | w :: rest =>
    let (ready, waiting) := release name rest
    if w.service.needs name then
      if w.openCount - 1 = 0 then (w.service :: ready, waiting)
      else (ready, ⟨w.service, w.openCount - 1⟩ :: waiting)
    else (ready, w :: waiting)

/-- Places the services of the queue, one each turn, behind which those come that they release. -/
def placeReady : Nat → List Service → List Waiting → List Service
  | 0, _, _ => []
  | _, [], _ => []
  | turns + 1, service :: queue, waiting =>
    let (ready, waiting) := release service.name waiting
    service :: placeReady turns (queue ++ ready) waiting

/-- The first name that was there before. -/
def firstRepeat (seen : List String) : List String → Option String
  | [] => none
  | name :: rest => if name ∈ seen then some name else firstRepeat (name :: seen) rest

namespace Project

/-- Names of the services in the order they are declared. -/
def names (project : Project) : List String := project.services.map (·.name)

/-- The first dependency that is not declared, with the service that has it. -/
def firstUnknown (project : Project) : Option (String × String) :=
  project.services.findSome? fun service =>
    (service.dependencies.find? (· ∉ project.names)).map (service.name, ·)

/-- The services in the order in which they become ready. -/
def readyOrder (project : Project) : List Service :=
  let ready := project.services.filter (·.dependsOn.isEmpty)
  let waiting := (project.services.filter (!·.dependsOn.isEmpty)).map fun service =>
    ⟨service, service.dependsOn.size⟩
  placeReady project.services.length ready waiting

/-- The services, each after everything it depends on. -/
def inDependencyOrder (project : Project) : Except SettingsError (List Service) :=
  match firstRepeat [] project.names with
  | some name => .error (.duplicateService name)
  | none =>
    match project.firstUnknown with
    | some (service, dependency) => .error (.unknownDependency service dependency)
    | none =>
      let order := project.readyOrder
      if order.length = project.services.length then .ok order else .error .circular

end Project

end Fleet
