import Fleet.Error
import Fleet.Labels

/-!
# Instance numbers

Every container of a service carries a number below `2 ^ 32`, and new ones
continue above the highest. A number is read as decimal digits with an optional
plus sign; anything else, and a label that is missing, is an error that names
the container and not something to skip.

## Main definitions

* `Numbering.parse?`: Reading a number.
* `Numbering.numberOf`: The number of a container.
* `Numbering.next`: One above the highest number.
* `Numbering.allocate`: Numbers for new containers.
-/

namespace Fleet.Numbering

/-- Instance numbers stay below this bound. -/
def bound : Nat := Nat.pow 2 32

/-- The number that a list of digits writes, if there are digits and nothing else. -/
def ofDigits? (digits : List Char) : Option Nat :=
  if digits.isEmpty || !digits.all Char.isDigit then none
  else some (digits.foldl (fun n c => n * 10 + (c.toNat - '0'.toNat)) 0)

/-- Reads a number below the bound. -/
def parse? (label : String) : Option Nat :=
  let digits :=
    match label.toList with
    | '+' :: rest => rest
    | digits => digits
  (ofDigits? digits).filter (· < bound)

/-- The label a container has its number on, or the empty text. -/
def labelOf (container : Summary) : String :=
  (container.labels.find? Labels.numberKey).getD ""

/-- The number of a container. -/
def numberOf (container : Summary) : Except NumberError Nat :=
  match parse? (labelOf container) with
  | some number => .ok number
  | none => .error (.malformed container.name (labelOf container))

/-- The containers with their numbers, or the first one that has none. -/
def numbered (containers : List Summary) : Except NumberError (List (Nat × Summary)) :=
  containers.mapM fun container => (numberOf container).map (·, container)

/-- The first entry with the highest number. -/
def highest : List (Nat × Summary) → Option (Nat × Summary)
  | [] => none
  | entry :: rest =>
    match highest rest with
    | some other => if entry.1 < other.1 then some other else some entry
    | none => some entry

/-- One above the highest number, or one if there are no containers. -/
def next (containers : List Summary) : Except NumberError Nat := do
  match highest (← numbered containers) with
  | none => return 1
  | some (number, container) =>
    if number + 1 < bound then return number + 1
    else throw (.exhausted container.name number)

/-- Consecutive numbers for `count` new containers. -/
def allocate (containers : List Summary) (count : Nat) : Except NumberError (List Nat) := do
  let first ← next containers
  if count = 0 ∨ first + count ≤ bound then return List.range' first count
  else throw (.beyond first (bound - first) count)

end Fleet.Numbering
