/-!
# Dictionaries

Finite maps from names to values, kept as their entries in strictly increasing
order of the keys.

Environment variables, labels and dependencies are written out key by key, and
the fingerprint of a service hangs on the text that results. Keeping the
entries sorted makes that text a function of the contents alone, whatever the
order in which they were given, so no later definition has to say which of
several representations it means.

Keys are compared code point by code point, which is also the order of their
UTF-8 bytes.

## Main definitions

* `Dict`: Entries whose keys strictly increase.
* `Dict.insert`: Adding an entry, or replacing the one under the same key.
* `Dict.find?`: The value under a key.
* `Dict.ofList`: The dictionary of a list of entries, the last of a key winning.

## Theorems

* `Dict.find?_insert`: A lookup after an insertion.
-/

namespace Fleet

/-- The keys of the entries strictly increase. -/
def KeysIncrease {α : Type} (entries : List (String × α)) : Prop :=
  entries.Pairwise fun a b => a.1 < b.1

/-- A finite map from names to values, its entries in key order. -/
structure Dict (α : Type) where
  -- Entries in order of their keys.
  entries : List (String × α)
  -- No key occurs twice, and none out of order.
  increasing : KeysIncrease entries

namespace Dict

variable {α : Type}

theorem eq_of_entries {d e : Dict α} (h : d.entries = e.entries) : d = e := by
  cases d; cases e; cases h; rfl

instance [DecidableEq α] : DecidableEq (Dict α) := fun d e =>
  if h : d.entries = e.entries then isTrue (eq_of_entries h)
  else isFalse fun he => h (he ▸ rfl)

/-- The dictionary without entries. -/
def empty : Dict α := ⟨[], List.Pairwise.nil⟩

instance : Inhabited (Dict α) := ⟨empty⟩

/-- Whether there are no entries. -/
def isEmpty (d : Dict α) : Bool := d.entries.isEmpty

/-- Number of entries. -/
def size (d : Dict α) : Nat := d.entries.length

/-- Keys in increasing order. -/
def keys (d : Dict α) : List String := d.entries.map (·.1)

/-- The value of the first entry under a key. -/
def lookup (key : String) : List (String × α) → Option α
  | [] => none
  | (k, v) :: rest => if k = key then some v else lookup key rest

/-- The value under a key. -/
def find? (d : Dict α) (key : String) : Option α := lookup key d.entries

/-- Whether a key has a value. -/
def contains (d : Dict α) (key : String) : Bool := (d.find? key).isSome

/-- Puts an entry in its place among entries in key order. -/
def place (key : String) (value : α) : List (String × α) → List (String × α)
  | [] => [(key, value)]
  | (k, v) :: rest =>
    if key < k then (key, value) :: (k, v) :: rest
    else if k < key then (k, v) :: place key value rest
    else (key, value) :: rest

theorem eq_of_not_lt {a b : String} (h : ¬a < b) (h' : ¬b < a) : a = b :=
  String.le_antisymm (String.not_lt.mp h') (String.not_lt.mp h)

/-- A placed entry is either new or one of the old ones. -/
theorem mem_place {key : String} {value : α} {entries : List (String × α)}
    {e : String × α} (h : e ∈ place key value entries) :
    e = (key, value) ∨ e ∈ entries := by
  induction entries with
  | nil => simpa [place] using h
  | cons head rest ih =>
    obtain ⟨k, v⟩ := head
    rw [place] at h
    split at h
    · simpa using h
    split at h
    · rcases List.mem_cons.mp h with h | h
      · exact .inr (h ▸ List.mem_cons_self)
      · exact (ih h).imp id (List.mem_cons_of_mem _)
    · exact (List.mem_cons.mp h).imp id (List.mem_cons_of_mem _)

theorem place_increases {key : String} {value : α} {entries : List (String × α)}
    (h : KeysIncrease entries) : KeysIncrease (place key value entries) := by
  induction entries with
  | nil => exact List.pairwise_singleton _ _
  | cons head rest ih =>
    obtain ⟨k, v⟩ := head
    obtain ⟨below, tail⟩ := List.pairwise_cons.mp h
    rw [place]
    split
    next lt =>
      refine List.pairwise_cons.mpr ⟨fun e he => ?_, h⟩
      rcases List.mem_cons.mp he with rfl | he
      · exact lt
      · exact String.lt_trans lt (below e he)
    next nlt =>
      split
      next lt =>
        refine List.pairwise_cons.mpr ⟨fun e he => ?_, ih tail⟩
        rcases mem_place he with rfl | he
        · exact lt
        · exact below e he
      next ngt =>
        cases eq_of_not_lt nlt ngt
        exact List.pairwise_cons.mpr ⟨below, tail⟩

/-- Adds an entry, replacing the one under the same key. -/
def insert (d : Dict α) (key : String) (value : α) : Dict α :=
  ⟨place key value d.entries, place_increases d.increasing⟩

/-- The dictionary of a list of entries, the last one of a key winning. -/
def ofList (entries : List (String × α)) : Dict α :=
  entries.foldl (fun d e => d.insert e.1 e.2) empty

/-- The same keys with other values. -/
def map {β : Type} (f : α → β) (d : Dict α) : Dict β :=
  ⟨d.entries.map fun e => (e.1, f e.2), by
    rw [KeysIncrease, List.pairwise_map]; exact d.increasing⟩

theorem lookup_place {key key' : String} {value : α} {entries : List (String × α)}
    (h : KeysIncrease entries) :
    lookup key' (place key value entries) =
      if key = key' then some value else lookup key' entries := by
  induction entries with
  | nil => rfl
  | cons head rest ih =>
    obtain ⟨k, v⟩ := head
    obtain ⟨_, tail⟩ := List.pairwise_cons.mp h
    rw [place]
    split
    · rfl
    next nlt =>
      split
      next lt =>
        rw [lookup, lookup, ih tail]
        by_cases hk : k = key'
        · have hne : key ≠ key' := fun he =>
            String.lt_irrefl k (by rw [← he] at hk; rw [← hk] at lt; exact lt)
          simp [hk, hne]
        · simp [hk]
      next ngt =>
        cases eq_of_not_lt nlt ngt
        by_cases hk : key = key' <;> simp [lookup, hk]

/-- A lookup after an insertion finds the new value under its key and the old ones elsewhere. -/
theorem find?_insert (d : Dict α) (key key' : String) (value : α) :
    (d.insert key value).find? key' = if key = key' then some value else d.find? key' :=
  lookup_place d.increasing

end Dict

end Fleet
