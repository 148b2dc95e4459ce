import Fleet.Binary64.Basic
import Fleet.Dict

/-!
# Reading typed data

Descriptions of services arrive in two notations. What a service is made of,
which of its fields may be left out and what they then are is the same in both,
so it is said once, over a record of the few questions a notation has to
answer; each notation answers them in its own way.

A field that is left out takes its default. A field that is present has to be
readable: `null` counts as a value, and only a field that may be absent accepts
it.

A notation may allow a value to stand for another one, and then has to keep an
account of how often that happens in one reading. So what an answer is wrapped
in is left to the notation: it has to be able to refuse, and may do more.

## Main definitions

* `Source`: The questions a notation answers about its values.
* `Source.required`, `Source.optional`, `Source.nullable`: The kinds of field.
* `Source.texts`, `Source.dict`: Lists of texts and dictionaries.
-/

namespace Fleet

/-- What a notation with values of type `σ` has to answer, its answers being wrapped in `m`. -/
structure Source (m : Type → Type) (σ : Type) where
  -- The value as a text.
  text : σ → m String
  -- The value as a natural number below a bound.
  natural : Nat → σ → m Nat
  -- The value as a double.
  number : σ → m Binary64
  -- The value to be read, or nothing if the value says that there is none.
  present : σ → m (Option σ)
  -- The items of a list.
  items : σ → m (List σ)
  -- The entries of a dictionary, in the order written.
  entries : σ → m (List (String × σ))
  -- The fields of a record with the names given, in the order they are declared.
  fields : List String → σ → m (String → Option σ)
  -- The one of the names given that the value is.
  choice : List String → σ → m String

namespace Source

variable {m : Type → Type} {σ α : Type} [Monad m] [MonadExcept Unit m]

/-- A field that has to be there. -/
def required (fields : String → Option σ) (name : String) (read : σ → m α) : m α :=
  match fields name with
  | none => throw ()
  | some value => read value

/-- A field with a default. -/
def optional (fields : String → Option σ) (name : String) (read : σ → m α) (default : α) : m α :=
  match fields name with
  | none => pure default
  | some value => read value

/-- A field that may be left out or said to be absent. -/
def nullable (S : Source m σ) (fields : String → Option σ) (name : String) (read : σ → m α) :
    m (Option α) := do
  match fields name with
  | none => return none
  | some value =>
    match ← S.present value with
    | none => return none
    | some value => return some (← read value)

/-- A list whose items are read alike. -/
def listOf (S : Source m σ) (read : σ → m α) (value : σ) : m (List α) := do
  (← S.items value).mapM read

/-- A list of texts. -/
def texts (S : Source m σ) : σ → m (List String) := S.listOf S.text

/-- A dictionary whose values are read alike, the last entry of a key winning. -/
def dict (S : Source m σ) (read : σ → m α) (value : σ) : m (Dict α) := do
  let entries ← (← S.entries value).mapM fun (key, item) => do return (key, ← read item)
  return Dict.ofList entries

/-- A natural number of 32 bits. -/
def natural32 (S : Source m σ) (value : σ) : m UInt32 := do
  return UInt32.ofNat (← S.natural (Nat.pow 2 32) value)

/-- A natural number of 64 bits. -/
def natural64 (S : Source m σ) (value : σ) : m UInt64 := do
  return UInt64.ofNat (← S.natural (Nat.pow 2 64) value)

end Source

end Fleet
