import Fleet.Proofs.Census

/-!
# What is read off a container later

A pass finds its containers by their labels, reads their numbers and fingerprints off them,
and knows nothing else of the pass that created them. So what is written on a container has to
be there for as long as the container is, whatever becomes of its name, its state and its
networks, and of the containers beside it.

A container has no identity but its id, and a request on an id is about the first container
that has it. What is followed is therefore not the container but the labels of all containers
with the id (`labelsOf`), which is one list and can be compared from store to store. That there
is one such container is then part of what stays. A deed leaves the list as it is unless
another container comes with the id or one with the id goes (`Deed.Spares`), and a tenure is a
part of the life of a store in which neither happens (`Tenure`). It begins in any store, and
the deeds may fail or be about other containers.

That the labels of one service are not taken for those of another needs no more than
that a filter compares whole values. Names are not that safe: the container 1 of the service
`b_c` of a project `a` has the name that the container 1 of the service `c` of `a_b` has.

## Main definitions

* `labelsOf`: The labels of the containers with an id.
* `Deed.Spares`: With a deed no container of the id comes, and none goes.
* `Tenure`: What is done with a store while a container stays.

## Theorems

* `Request.labelsOf_effect`, `Deed.labelsOf_after`, `Tenure.labelsOf_eq`: Labels stay.
* `Deed.spares_of_target`: What is asked of a container spares it, but for its removal.
* `Store.exists_sole_entry`: When a container is in a listing, and that it is there once.
* `Tenure.labels_read_back`: What was written on a container is read back.
-/

namespace Fleet

variable {id : String} {s t : Store}

/-! ### Labels under an id -/

/-- The labels of the containers with an id. -/
def labelsOf (id : String) (cs : List Container) : List Labels :=
  (cs.filter (·.id = id)).map (·.labels)

/-- Nothing but ids and labels matters. -/
theorem labelsOf_eq_map (id : String) (cs : List Container) :
    labelsOf id cs = ((cs.map fun c => (c.id, c.labels)).filter (·.1 = id)).map (·.2) := by
  rw [List.filter_map, List.map_map]
  rfl

theorem labelsOf_congr {cs ds : List Container}
    (h : ds.map (fun c => (c.id, c.labels)) = cs.map fun c => (c.id, c.labels)) :
    labelsOf id ds = labelsOf id cs := by
  rw [labelsOf_eq_map, h, ← labelsOf_eq_map]

/-- A container with another id comes behind the others. -/
theorem labelsOf_concat_of_ne {c : Container} (h : c.id ≠ id) (cs : List Container) :
    labelsOf id (cs ++ [c]) = labelsOf id cs := by
  rw [labelsOf, List.filter_append, List.filter_cons_of_neg (by simpa using h), List.filter_nil,
    List.append_nil, labelsOf]

/-- The only container with an id comes behind the others. -/
theorem labelsOf_concat_of_new {c : Container} {cs : List Container}
    (h : ∀ d ∈ cs, d.id ≠ c.id) : labelsOf c.id (cs ++ [c]) = [c.labels] := by
  have hnone : cs.filter (·.id = c.id) = [] :=
    List.filter_eq_nil_iff.mpr fun d hd => by simpa using h d hd
  rw [labelsOf, List.filter_append, hnone, List.filter_cons_of_pos (by simp), List.filter_nil]
  rfl

/-- What leaves all containers alone but those with one id leaves the labels of another id. -/
theorem labelsOf_of_others {i : String} {cs ds : List Container} (hne : i ≠ id)
    (h : ds.filter (·.id ≠ i) = cs.filter (·.id ≠ i)) : labelsOf id ds = labelsOf id cs := by
  have hthrough : ∀ l : List Container,
      (l.filter (·.id ≠ i)).filter (·.id = id) = l.filter (·.id = id) := by
    intro l
    rw [List.filter_filter]
    refine List.filter_congr fun c _ => ?_
    by_cases hc : c.id = id
    · simp [hc, hne.symm]
    · simp [hc]
  rw [labelsOf, ← hthrough, h, hthrough, labelsOf]

/-! ### What a deed does to them -/

/-- A request that succeeds leaves the labels of an id, unless it gives the id to a new container or
    removes a container with it. -/
theorem Request.labelsOf_effect {q : Request} {birth : Health} {fresh : String}
    (hcreate : ∀ b, q = create b → fresh ≠ id) (hremove : q ≠ remove id) (cs : List Container) :
    labelsOf id (q.effect birth fresh cs) = labelsOf id cs := by
  cases q with
  | list _ => rfl
  | create b => exact labelsOf_concat_of_ne (hcreate b rfl) cs
  | remove i =>
      exact labelsOf_of_others (fun heq => hremove (heq ▸ rfl)) (filter_effect rfl birth fresh cs)
  | _ =>
      refine labelsOf_congr ?_
      simp only [effect, target?]
      rw [map_changeFirst fun c => by rw [changed_id, changed_labels]]

namespace Deed

/-- A deed spares an id if no container comes with the id, and none that has it is removed; a removal
    that fails removes nothing. -/
def Spares (id : String) (s : Store) (d : Deed) : Prop :=
  id ∉ d.brings s ∧ (d = call (.remove id) → (s.call (.remove id)).1 ≠ .ok ())

/-- An id is spared when a container is inspected, started, stopped, renamed or attached, be it the
    one with the id or another, and when one with another id is removed. -/
theorem spares_of_target {q : Request} {i : String} (htarget : q.target? = some i)
    (hremove : q ≠ .remove id) : (call q).Spares id s := by
  refine ⟨?_, fun h => absurd (call.inj h) hremove⟩
  cases q with
  | create b => cases htarget
  | _ => exact List.not_mem_nil

/-- A deed that spares an id leaves its labels. -/
theorem labelsOf_after {d : Deed} (h : d.Spares id s) :
    labelsOf id (d.after s).containers = labelsOf id s.containers := by
  rcases h with ⟨hbrings, hstays⟩
  cases d with
  | call q =>
      rw [after]
      cases hcall : (s.call q).1 with
      | error cause => rw [(Store.call_error hcall).1]
      | ok answer =>
          rcases Store.call_ok hcall with ⟨_, hafter, hborn⟩
          rw [hafter]
          refine Request.labelsOf_effect ?_ ?_ s.containers
          · -- The id that is given out is the one that the deed brings.
            rintro b rfl heq
            have hfresh : answer = s.supply.next := hborn ""
            rw [brings, hcall, hfresh, heq] at hbrings
            exact hbrings (List.mem_singleton_self id)
          · rintro rfl
            exact hstays rfl hcall
  | seed c => exact labelsOf_concat_of_ne (fun heq => hbrings (List.mem_singleton.mpr heq.symm)) _
  | setHealth i health => exact labelsOf_congr (map_setHealth (fun _ _ => rfl) s i health)
  | setHealthWhere filter health =>
      exact labelsOf_congr (map_setHealthWhere (fun _ _ => rfl) s filter health)
  | _ => rfl

end Deed

/-! ### Tenures -/

/-- What is done with a store while the container with an id stays, from one store to another. -/
inductive Tenure (id : String) (s : Store) : Store → Prop
  | begin : Tenure id s s
  | next {t : Store} (d : Deed) : Tenure id s t → d.Spares id t → Tenure id s (d.after t)

/-- The labels of an id last as long as a tenure. -/
theorem Tenure.labelsOf_eq (h : Tenure id s t) :
    labelsOf id t.containers = labelsOf id s.containers := by
  induction h with
  | begin => rfl
  | next d _ hspares ih => rw [Deed.labelsOf_after hspares, ih]

/-! ### Listings -/

namespace Store

/-- A container that has been created under a new id is the only one with it. -/
theorem labelsOf_created {b : Blueprint} (hcreated : (s.call (.create b)).1 = .ok id)
    (hnew : ∀ c ∈ s.containers, c.id ≠ id) :
    labelsOf id (s.call (.create b)).2.containers = [b.labels] := by
  rcases call_ok hcreated with ⟨_, hafter, hborn⟩
  have hfresh : id = s.supply.next := hborn ""
  subst hfresh
  rw [hafter]
  exact labelsOf_concat_of_new (c := Request.newborn s.healthOnCreate _ b) hnew

/-- The only container with an id is in a listing exactly if its labels are looked for, and no other
    entry of the listing has its id. -/
theorem exists_sole_entry (hpending : t.pending .list = none) {labels : Labels}
    (h : labelsOf id t.containers = [labels]) : ∃ e : Summary, e.id = id ∧ e.labels = labels ∧
      ∀ filter : LabelFilter, ∃ listing, (t.call (.list filter)).1 = .ok listing ∧
        (e ∈ listing ↔ filter.accepts labels = true) ∧ ∀ e' ∈ listing, e'.id = id → e' = e := by
  rcases List.map_eq_singleton_iff.mp h with ⟨c, honly, rfl⟩
  have hc : c ∈ t.containers ∧ c.id = id := by
    have hmem : c ∈ t.containers.filter (·.id = id) := honly ▸ List.mem_singleton_self c
    simpa using hmem
  have hsole : ∀ d ∈ t.containers, d.id = id → d = c := fun d hd hid =>
    List.mem_singleton.mp (honly ▸ List.mem_filter.mpr ⟨hd, decide_eq_true hid⟩)
  refine ⟨c.summary, hc.2, rfl, fun filter => ?_⟩
  rcases call_succeeds (q := .list filter) hpending trivial with ⟨listing, hok⟩
  have hlisting := call_list hok
  refine ⟨listing, hok, ⟨fun hmem => ?_, fun haccepts => ?_⟩, fun e' he' hid => ?_⟩
  · rw [hlisting] at hmem
    rcases List.mem_map.mp hmem with ⟨d, hd, heq⟩
    have hlabels : d.labels = c.labels := congrArg Summary.labels heq
    exact hlabels ▸ (List.mem_filter.mp hd).2
  · rw [hlisting]
    exact List.mem_map_of_mem (List.mem_filter.mpr ⟨hc.1, haccepts⟩)
  · rw [hlisting] at he'
    rcases List.mem_map.mp he' with ⟨d, hd, rfl⟩
    rw [hsole d (List.mem_filter.mp hd).1 hid]

end Store

/-- A container that has been created for a service is listed for that service, and for no other one
    of any project, as long as it is there, and the number and the fingerprint that it was created
    with are read off the entry. -/
theorem Tenure.labels_read_back {project name : String} {service : Service} {number : Nat}
    (hnumber : number < Numbering.bound)
    (hcreated : (s.call (.create (.ofService project service name number))).1 = .ok id)
    (hnew : ∀ c ∈ s.containers, c.id ≠ id)
    (htenure : Tenure id (s.call (.create (.ofService project service name number))).2 t)
    (hpending : t.pending .list = none) :
    ∃ e : Summary, e.id = id ∧ Numbering.numberOf e = .ok number ∧
      e.labels.find? Labels.fingerprintKey = some service.fingerprint ∧
      ∀ project' service' : String, ∃ listing,
        (t.call (.list (Labels.serviceFilter project' service'))).1 = .ok listing ∧
        (e ∈ listing ↔ project' = project ∧ service' = service.name) ∧
        ∀ e' ∈ listing, e'.id = id → e' = e := by
  have hlabels : labelsOf id t.containers =
      [Labels.ofInstance project service.name number service.fingerprint] := by
    rw [htenure.labelsOf_eq, Store.labelsOf_created hcreated hnew]
    rfl
  rcases Store.exists_sole_entry hpending hlabels with ⟨e, hid, hwritten, hlisted⟩
  refine ⟨e, hid, Labels.numberOf_ofInstance hnumber hwritten, ?_, fun project' service' => ?_⟩
  · rw [hwritten]
    exact Labels.find?_fingerprint_ofInstance
  · rcases hlisted (Labels.serviceFilter project' service') with ⟨listing, hok, hmem, hsole⟩
    exact ⟨listing, hok, hmem.trans Labels.accepts_ofInstance_iff, hsole⟩

/-! ### A container under another name -/

namespace Sample

/-- What a container of the service `c` of a project `a_b` is created from, with the highest number
    that there is. -/
def ours : Blueprint :=
  .ofService "a_b" (.plain "c" "app:1") (containerName "a_b" "c" 4294967295) 4294967295

/-- What a container of the service `b_c` of a project `a` is created from, under the same name. -/
def theirs : Blueprint :=
  .ofService "a" (.plain "b_c" "app:1") (containerName "a" "b_c" 4294967295) 4294967295

/-- A store with another container, after the first of the two has been created. -/
def founded : Store := ((Store.empty.seed container).call (.create ours)).2

/-- The new container is attached, started, put out of the way and stopped, and the second one is
    created under the name that has become free. -/
def vicissitudes : List Deed :=
  [.call (.connect "a_b_front" (Store.freshId 1) ["c"]), .call (.start (Store.freshId 1)),
    .call (.rename (Store.freshId 1) "moved"), .call (.create theirs),
    .call (.stop (Store.freshId 1) none)]

/-- The store that this leads to. -/
def moved : Store := vicissitudes.foldl Deed.after founded

end Sample

section Samples

open Sample

/-- The container has lost its name to the other one, and is listed for its own service only, with
    its number and its fingerprint. -/
theorem Tenure.labels_read_back_sample :
    4294967295 < Numbering.bound ∧
    ((Store.empty.seed container).call (.create ours)).1 = .ok (Store.freshId 1) ∧
    (∀ c ∈ (Store.empty.seed container).containers, c.id ≠ Store.freshId 1) ∧
    Tenure (Store.freshId 1) founded moved ∧ moved.pending .list = none ∧
    moved.containers.map (·.name) = [container.name, "moved", ours.name] ∧
    ∃ e : Summary, e.id = Store.freshId 1 ∧ Numbering.numberOf e = .ok 4294967295 ∧
      e.labels.find? Labels.fingerprintKey = some (Service.plain "c" "app:1").fingerprint ∧
      (∃ listing, (moved.call (.list (Labels.serviceFilter "a_b" "c"))).1 = .ok listing ∧
        e ∈ listing) ∧
      ∃ listing, (moved.call (.list (Labels.serviceFilter "a" "b_c"))).1 = .ok listing ∧
        e ∉ listing := by
  have hnumber : 4294967295 < Numbering.bound := by decide
  have hcreated : ((Store.empty.seed container).call (.create ours)).1 = .ok (Store.freshId 1) :=
    rfl
  have hnew : ∀ c ∈ (Store.empty.seed container).containers, c.id ≠ Store.freshId 1 := by decide
  have hattached : Tenure (Store.freshId 1) founded
      ((vicissitudes.take 1).foldl Deed.after founded) :=
    .next (.call (.connect "a_b_front" (Store.freshId 1) ["c"])) .begin
      (Deed.spares_of_target rfl nofun)
  have hstarted : Tenure (Store.freshId 1) founded
      ((vicissitudes.take 2).foldl Deed.after founded) :=
    hattached.next (.call (.start (Store.freshId 1))) (Deed.spares_of_target rfl nofun)
  have hrenamed : Tenure (Store.freshId 1) founded
      ((vicissitudes.take 3).foldl Deed.after founded) :=
    hstarted.next (.call (.rename (Store.freshId 1) "moved")) (Deed.spares_of_target rfl nofun)
  have hbrings : (Deed.call (.create theirs)).brings
      ((vicissitudes.take 3).foldl Deed.after founded) = [Store.freshId 2] := rfl
  have hjoined : Tenure (Store.freshId 1) founded
      ((vicissitudes.take 4).foldl Deed.after founded) :=
    hrenamed.next (.call (.create theirs)) ⟨by rw [hbrings]; decide, nofun⟩
  have htenure : Tenure (Store.freshId 1) founded moved :=
    hjoined.next (.call (.stop (Store.freshId 1) none)) (Deed.spares_of_target rfl nofun)
  have hpending : moved.pending .list = none := rfl
  rcases Tenure.labels_read_back hnumber hcreated hnew htenure hpending with
    ⟨e, hid, hread, hfingerprint, hlisted⟩
  rcases hlisted "a_b" "c" with ⟨own, hown, hmem, _⟩
  rcases hlisted "a" "b_c" with ⟨other, hother, hmem', _⟩
  exact ⟨hnumber, hcreated, hnew, htenure, hpending, by decide, e, hid, hread, hfingerprint,
    ⟨own, hown, hmem.mpr ⟨rfl, rfl⟩⟩, other, hother, fun h => absurd (hmem'.mp h).1 (by decide)⟩

end Samples

end Fleet
