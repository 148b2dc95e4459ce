import Fleet.Operation

/-!
# Plans

What a pass does about the containers it has listed. Containers that are
missing are created with new numbers; of too many the lowest numbers are kept
and the others removed; of those kept, the ones whose fingerprint has drifted
or that are to be replaced anyway are replaced, and of the others the ones that
do not run are started.

Numbers are read only where they are needed. As long as there are enough
containers and not too many, a container whose number cannot be read is kept
like any other.

## Main definitions

* `splitExcess`: Telling the containers to keep from the ones too many.
* `Plan`: Numbers missing, containers too many, containers kept.
* `Plan.operations`: The operations of a plan, in the order they begin.
-/

namespace Fleet

/-- The containers to keep and the ones beyond the scale. The ones with the lowest numbers are
    kept, and of equal numbers the one listed first. -/
def splitExcess (containers : List Summary) (scale : Nat) :
    Except NumberError (List Summary × List Summary) :=
  if containers.length ≤ scale then .ok (containers, [])
  else do
    let numbered ← Numbering.numbered containers
    let sorted := (numbered.mergeSort fun a b => a.1 ≤ b.1).map (·.2)
    return (sorted.take scale, sorted.drop scale)

/-- What a pass does about the containers of a service. -/
structure Plan where
  -- Numbers of the containers to be created.
  missing : List Nat
  -- Containers to be removed.
  excess : List Summary
  -- Containers to be kept, perhaps replaced or started.
  kept : List Summary

namespace Plan

/-- The plan for the containers listed. -/
def ofListing (containers : List Summary) (scale : Nat) : Except NumberError Plan := do
  let missing ←
    if containers.length < scale then Numbering.allocate containers (scale - containers.length)
    else pure []
  let (kept, excess) ← splitExcess containers scale
  return ⟨missing, excess, kept⟩

/-- Whether a container was created from another description than the service's. -/
def isDrifted (service : Service) (container : Summary) : Bool :=
  container.labels.find? Labels.fingerprintKey != some service.fingerprint

/-- What is done to a container that is kept. -/
def upkeep (project : String) (service : Service) (grace : Option Nat) (forced : Bool)
    (container : Summary) : Option Operation :=
  if isDrifted service container || forced then
    some (.recreate project service grace container)
  else if container.state.isRunning then none
  else some (.restart service container)

/-- The operations of a plan: creations, removals, and then the upkeep of what is kept. -/
def operations (plan : Plan) (project : String) (service : Service) (grace : Option Nat)
    (forced : Bool) : List Operation :=
  plan.missing.map (fun number =>
    .create project service (containerName project service.name number) number) ++
  plan.excess.map (.remove service grace) ++
  plan.kept.filterMap (upkeep project service grace forced)

end Plan

end Fleet
