import Fleet.Json.Basic
import Fleet.Source

/-!
# Typed data in JSON

A record is an object with its fields under their names, or a list of its
fields in the order they are declared, the last of which may be missing. An
object with the same field twice is refused, a field that is not known is
passed over. One of several names is a string, or an object with that name as
its only key and `null` under it.

## Main definitions

* `Json.source`: How JSON answers what typed readers ask.
-/

namespace Fleet.Json

/-- The value of the only entry under a key; refuses a second one. -/
def single? (key : String) : List (String × Json) → Option (Option Json)
  | [] => some none
  | (k, value) :: rest => do
    let later ← single? key rest
    if k = key then
      if later.isSome then none else return some value
    else return later

/-- The fields of a record, by name. -/
def recordFields (names : List String) : Json → Option (String → Option Json)
  | object entries => do
    let found ← names.mapM fun name => (single? name entries).map (name, ·)
    return fun name => (found.lookup name).join
  | list items =>
    if items.length ≤ names.length then some fun name => (names.zip items).lookup name
    else none
  | _ => none

/-- How JSON answers what typed readers ask. -/
def source : Source Option Json where
  text
    | .text s => some s
    | _ => none
  natural bound
    | .integer n => if 0 ≤ n ∧ n < bound then some n.toNat else none
    | _ => none
  number
    | .integer n => some (Binary64.ofInt n)
    | .real x => some x
    | _ => none
  present
    | .null => some none
    | value => some (some value)
  items
    | .list items => some items
    | _ => none
  entries
    | .object entries => some entries
    | _ => none
  fields := recordFields
  choice names
    | .text s => if s ∈ names then some s else none
    | .object [(key, .null)] => if key ∈ names then some key else none
    | _ => none

end Fleet.Json
