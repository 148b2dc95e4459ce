import Fleet.Service

/-!
# Marks

When the containers of a service have been replaced, the services that depend
on it may hold on to addresses that are gone, although their own fingerprint
has not changed. They are marked, and a marked service has its containers
replaced when its turn comes in the same pass. Marks live as long as the pass.

## Main definitions

* `Marks`: Strategies given to services during a pass.
* `Marks.forces`: Whether the containers of a service are to be replaced.
* `Marks.spread`: Marking the services that depend on one.
-/

namespace Fleet

/-- Strategies given to services during a pass, by name. -/
abbrev Marks := Dict Strategy

namespace Marks

/-- No service is marked. -/
def none : Marks := Dict.empty

/-- The strategy of a service: the one it was marked with, else the one it declares. -/
def strategyFor (marks : Marks) (service : Service) : Option Strategy :=
  (marks.find? service.name).or service.lifecycle

/-- Whether every container of the service is to be replaced. -/
def forces (marks : Marks) (service : Service) : Bool :=
  marks.strategyFor service == some .forceRecreate

/-- Names of the services that a change of the one named reaches. -/
def reached (project : Project) (name : String) : List String :=
  (project.dependentsOf name).map (·.name)

/-- Marks every service that depends on the one named. -/
def spread (marks : Marks) (project : Project) (name : String) (strategy : Strategy) : Marks :=
  (reached project name).foldl (fun marks dependent => marks.insert dependent strategy) marks

end Marks

end Fleet
