import Fleet.Container.Basic

/-!
# Labels and names of a service's containers

Labels are all that one pass leaves behind for the next: a container is found
by its project and service, and its instance number and the fingerprint it was
created from are read back off it.

## Main definitions

* `Labels.serviceFilter`: The labels all containers of a service have.
* `Labels.ofInstance`: The labels of a new container.
* `containerName`, `networkName`: Names inside a project.
-/

namespace Fleet

namespace Labels

/-- The key of the project a container belongs to. -/
def projectKey : String := "com.docker.compose.project"

/-- The key of the service a container runs. -/
def serviceKey : String := "com.docker.compose.service"

/-- The key of a container's number within its service. -/
def numberKey : String := "com.docker.compose.container-number"

/-- The key of the fingerprint a container was created from. -/
def fingerprintKey : String := "com.docker.compose.config-hash"

/-- The key that tells a single run from a replica. -/
def oneOffKey : String := "com.docker.compose.oneoff"

/-- The labels that all containers of a service have and no others. -/
def serviceFilter (project service : String) : LabelFilter :=
  ⟨[(projectKey, project), (serviceKey, service)]⟩

/-- The labels of a new container. -/
def ofInstance (project service : String) (number : Nat) (fingerprint : String) : Labels :=
  Dict.ofList
    [(projectKey, project), (serviceKey, service), (numberKey, toString number),
      (fingerprintKey, fingerprint), (oneOffKey, "False")]

end Labels

/-- The name of a service's container. -/
def containerName (project service : String) (number : Nat) : String :=
  project ++ "_" ++ service ++ "_" ++ toString number

/-- The name of a project's network. -/
def networkName (project network : String) : String := project ++ "_" ++ network

/-- The name an old container gets out of the way with. -/
def parkedName (id name : String) : String := shortIdOf id ++ "_" ++ name

end Fleet
