import Fleet.Drill

/-!
# Hosts

An engine leaves open what its runtime does. A host is an engine whose runtime
is a store that is changed by the requests made through the engine and by
nothing else, which is what statements about what a pass does to a store need.

Two things may still happen beside the requests. A failure may be laid in store
at any moment, and the caller may put an end to the work; a host is `calm` while
nothing but these two can happen, and `peaceful` while not even they can. How
often tasks give up their turn, and which answers are slow, is left to the
engine, so a statement about every host covers every rhythm in which tasks
beside each other can make their requests.

A host may also keep a trail of the stores it has been through. `Host.recorded`
is the host that keeps all of them, for statements about every moment of a run
and not only about the moments between turns.

## Main definitions

* `Host`: An engine on a store.
* `Host.recorded`: A host that keeps every store it has been through.
* `Drill.host`: The host that a drill is.

## Theorems

* `Drill.before_calm`: Before a request a drill only lays failures in store.
-/

namespace Fleet

/-- A store with other failures laid in store. -/
def Store.expecting (s : Store) (pending : Verb → Option String) : Store := { s with pending }

/-- An engine whose runtime is a store that only requests change. -/
structure Host (ρ : Type) where
  engine : Engine ρ
  -- The store behind the runtime.
  store : ρ → Store
  -- Some of the stores the runtime has been through.
  trail : ρ → List Store
  -- Nothing can happen but failures and the end of the work.
  calm : ρ → Prop
  -- Nothing can happen.
  peaceful : ρ → Prop
  call_calm : ∀ q w, calm w → calm (engine.call q w).2 ∧
    ∃ pending, (engine.call q w).1 = (((store w).expecting pending).call q).1 ∧
      store (engine.call q w).2 = (((store w).expecting pending).call q).2
  call_trail : ∀ q w, ∀ s ∈ trail (engine.call q w).2,
    s ∈ trail w ∨ s = store (engine.call q w).2
  cancel_calm : ∀ w, calm w → calm (engine.cancel w) ∧ store (engine.cancel w) = store w
  cancel_trail : ∀ w, ∀ s ∈ trail (engine.cancel w), s ∈ trail w
  calm_of_peaceful : ∀ w, peaceful w → calm w
  call_peaceful : ∀ q w, peaceful w → peaceful (engine.call q w).2 ∧
    (engine.call q w).1 = ((store w).call q).1 ∧ store (engine.call q w).2 = ((store w).call q).2
  not_cancelled : ∀ w, peaceful w → engine.cancelled w = false

namespace Host

variable {ρ : Type}

/-- A host that keeps no store it has been through. -/
def forgetful (H : Host ρ) : Host ρ :=
  { H with
    trail := fun _ => []
    call_trail := fun _ _ _ h => absurd h List.not_mem_nil
    cancel_trail := fun _ _ h => h }

/-- A host that keeps every store it has been through. -/
def recorded (H : Host ρ) : Host (ρ × List Store) where
  engine :=
    { call := fun q w => ((H.engine.call q w.1).1,
        (H.engine.call q w.1).2, w.2 ++ [H.store (H.engine.call q w.1).2])
      pauses := fun w => H.engine.pauses w.1
      slow := fun w after => H.engine.slow w.1 after.1
      cancelled := fun w => H.engine.cancelled w.1
      cancel := fun w => (H.engine.cancel w.1, w.2) }
  store w := H.store w.1
  trail w := w.2
  calm w := H.calm w.1
  peaceful w := H.peaceful w.1
  call_calm q w h := H.call_calm q w.1 h
  call_trail q w s h := by simpa only [List.mem_append, List.mem_singleton] using h
  cancel_calm w h := H.cancel_calm w.1 h
  cancel_trail _ _ h := h
  calm_of_peaceful w h := H.calm_of_peaceful w.1 h
  call_peaceful q w h := H.call_peaceful q w.1 h
  not_cancelled w h := H.not_cancelled w.1 h

end Host

/-- Whether a happening leaves the containers alone. -/
def Happening.sparesContainers : Happening → Prop
  | .fail _ _ | .cancel => True
  | _ => False

namespace Drill

/-- Nothing but failures and the end of the work is arranged. -/
def isCalm (d : Drill) : Prop := ∀ i ∈ d.incidents, i.happening.sparesContainers

theorem count_calm (q : Request) {d : Drill} {i : Incident} (hd : d.isCalm)
    (hi : i.happening.sparesContainers) :
    (count q d i).isCalm ∧ ∃ pending, (count q d i).store = d.store.expecting pending := by
  have hkept : ∀ left, ∀ j ∈ d.incidents ++ [{ i with left }],
      j.happening.sparesContainers := by
    intro left j hj
    rcases List.mem_append.mp hj with hj | hj
    · exact hd j hj
    · rw [List.mem_singleton.mp hj]
      exact hi
  unfold count
  split
  · exact ⟨hkept i.left, d.store.pending, rfl⟩
  split
  · cases hh : i.happening with
    | fail verb reason => exact ⟨hd, _, rfl⟩
    | cancel => exact ⟨hd, d.store.pending, rfl⟩
    | setHealth _ _ =>
        rw [hh] at hi
        exact hi.elim
    | setHealthWhere _ _ =>
        rw [hh] at hi
        exact hi.elim
  · exact ⟨hkept (i.left - 1), d.store.pending, rfl⟩

theorem foldl_count_calm (q : Request) (incidents : List Incident) {d : Drill} (hd : d.isCalm)
    (hi : ∀ i ∈ incidents, i.happening.sparesContainers) :
    (incidents.foldl (count q) d).isCalm ∧
      ∃ pending, (incidents.foldl (count q) d).store = d.store.expecting pending := by
  induction incidents generalizing d with
  | nil => exact ⟨hd, d.store.pending, rfl⟩
  | cons i rest ih =>
      rcases count_calm q hd (hi i List.mem_cons_self) with ⟨hcalm, pending, hstore⟩
      rcases ih hcalm (fun j hj => hi j (List.mem_cons_of_mem _ hj)) with
        ⟨hcalm', pending', hstore'⟩
      refine ⟨hcalm', pending', ?_⟩
      rw [List.foldl_cons, hstore', hstore]
      rfl

/-- Before a request a calm drill only lays failures in store. -/
theorem before_calm (q : Request) {d : Drill} (hd : d.isCalm) :
    (d.before q).isCalm ∧ ∃ pending, (d.before q).store = d.store.expecting pending :=
  foldl_count_calm q d.incidents (fun _ hi => absurd hi List.not_mem_nil) hd

/-- The host that a drill is. -/
def host : Host Drill where
  engine := engine
  store d := d.store
  trail _ := []
  calm := isCalm
  peaceful d := d.incidents = [] ∧ d.cancelled = false
  call_calm q d hd := by
    rcases before_calm q hd with ⟨hcalm, pending, hstore⟩
    exact ⟨hcalm, pending, by simp only [engine, call, hstore], by simp only [engine, call, hstore]⟩
  call_trail _ _ _ h := absurd h List.not_mem_nil
  cancel_calm d hd := ⟨hd, rfl⟩
  cancel_trail _ _ h := h
  calm_of_peaceful d hd := by
    intro i hi
    rw [hd.1] at hi
    exact absurd hi List.not_mem_nil
  call_peaceful q d hd := by
    have hbefore : d.before q = d := by
      rcases d with ⟨store, cancelled, pauses, incidents⟩
      simp only at hd
      rw [hd.1]
      rfl
    refine ⟨?_, ?_, ?_⟩ <;> simp only [engine, call, hbefore]
    exact hd
  not_cancelled _ hd := hd.2

end Drill

end Fleet
