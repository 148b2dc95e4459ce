import Fleet.Container.State
import Fleet.Dict

/-!
# Containers as a runtime reports them

A listing gives a summary of each container, an inspection adds its health.
Containers are found by their labels: a filter is a list of labels that all
have to be there with exactly the value given.

## Main definitions

* `Labels`: The labels of a container.
* `LabelFilter`: Labels to look for.
* `Summary`: An entry of a listing.
* `Summary.shortId`: The beginning of an id, for names.
* `Details`: The result of an inspection.
-/

namespace Fleet

/-- The labels of a container. -/
abbrev Labels := Dict String

/-- Labels a container must have, in the order they were asked for. -/
structure LabelFilter where
  -- Keys with the value each must have.
  pairs : List (String × String)
  deriving DecidableEq

/-- Whether labels have everything a filter asks for. -/
def LabelFilter.accepts (filter : LabelFilter) (labels : Labels) : Bool :=
  filter.pairs.all fun (key, value) => labels.find? key == some value

/-- An entry of a listing. -/
structure Summary where
  id : String
  name : String
  labels : Labels
  state : ContainerState
  deriving DecidableEq, Inhabited

/-- The characters that take up exactly `size` bytes at the front, if a character ends there. -/
def bytesAtFront : Nat → List Char → Option (List Char)
  | 0, _ => some []
  | _, [] => none
  | size, c :: rest =>
    if c.utf8Size ≤ size then (bytesAtFront (size - c.utf8Size) rest).map (c :: ·) else none

/-- The first twelve bytes of an id, or the whole id if no character ends there. -/
def shortIdOf (id : String) : String := ((bytesAtFront 12 id.toList).map String.ofList).getD id

/-- The short form of a container's id. -/
def Summary.shortId (container : Summary) : String := shortIdOf container.id

/-- The result of an inspection. -/
structure Details extends Summary where
  -- The health status, if a health check is configured.
  health : Option Health
  deriving DecidableEq, Inhabited

end Fleet
