import Fleet.Container.Basic
import Fleet.Json.Reader
import Fleet.Json.Source

/-!
# Output of an inspection

The docker client prints the containers it inspects as a JSON list of records,
of which a few fields matter. Names are printed with a slash in front.

## Main definitions

* `Docker.readInspection`: The containers of an output.
-/

namespace Fleet.Docker

/-- Reads the record of a health status. -/
def readHealth (value : Json) : Option (Option Health) := do
  let fields ← Json.source.fields ["Status"] value
  return Health.parse? (← Source.required fields "Status" Json.source.text)

/-- Reads the record of a state, with the health status in it. -/
def readState (value : Json) : Option (ContainerState × Option Health) := do
  let fields ← Json.source.fields ["Status", "Health"] value
  let status ← Source.required fields "Status" Json.source.text
  let health ← Json.source.nullable fields "Health" readHealth
  return (.parse status, health.join)

/-- Reads the record of a configuration, of which only the labels matter. -/
def readLabels (value : Json) : Option Labels := do
  let fields ← Json.source.fields ["Labels"] value
  let labels ← Json.source.nullable fields "Labels" (Json.source.dict Json.source.text)
  return labels.getD Dict.empty

/-- A name without the slashes in front. -/
def bareName (name : String) : String := String.ofList (name.toList.dropWhile (· == '/'))

/-- Reads the record of a container. -/
def readDetails (value : Json) : Option Details := do
  let fields ← Json.source.fields ["Id", "Name", "State", "Config"] value
  let id ← Source.required fields "Id" Json.source.text
  let name ← Source.required fields "Name" Json.source.text
  let (state, health) ← Source.required fields "State" readState
  let labels ← Source.required fields "Config" readLabels
  return ⟨⟨id, bareName name, labels, state⟩, health⟩

/-- The containers an inspection printed. -/
def readInspection (output : String) : Option (List Details) :=
  (Json.parse output).bind (Json.source.listOf readDetails)

end Fleet.Docker
