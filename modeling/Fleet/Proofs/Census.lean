import Fleet.Proofs.Sample
import Mathlib.Data.List.Dedup

/-!
# The life of a store

What can be relied on in a store that begins without containers, whatever is done with it: by
requests, which may fail, or by the preparations that tests make. Ids and names stay distinct.
Containers stand in the order in which they came, and none of them goes but by its own removal.

For the order there has to be something to compare the store with, and the store does not keep
it: a container does not know when it came. So a life carries the ids that have come, one
behind the other, beside the store they have led to (`Life`). An id may come, go, and come
again with another container, and then it is the last time that counts, which is what
`List.dedup` leaves of a list.

Nothing is assumed of the ids that the store gives out but that each is new when it is given
out. That is less than what holds of them, and it is all that is said about the ids of
containers that are put in.

## Main definitions

* `Deed`: Something that is done with a store.
* `Deed.brings`: The id of the container that comes with a deed.
* `Life`: The stores that deeds lead to from an empty one, with the ids that have come.

## Theorems

* `Deed.ids_cases`: What a deed does to the ids.
* `Deed.others_after`: A deed that is about one container leaves the others alone.
* `Deed.gone`, `Deed.come`: How containers go and come.
* `Seniority.after`, `Life.seniority`: Ids and names are distinct, and in the order in which
  they came.
-/

namespace Fleet

/-- Something that is done with a store. -/
inductive Deed
  -- A request is made.
  | call (q : Request)
  -- A container is put in.
  | seed (c : Container)
  -- An id is given out for a container that is to be put in.
  | takeId
  -- A failure is laid in store.
  | failNext (verb : Verb) (reason : String)
  -- The health of a container is set.
  | setHealth (id : String) (health : Option Health)
  -- The health of all containers with the labels given is set.
  | setHealthWhere (filter : LabelFilter) (health : Option Health)
  -- The health of containers to come is set.
  | setHealthOnCreate (health : Health)
  -- The requests so far are forgotten.
  | clearLog

namespace Deed

/-- The store after a deed. -/
def after (s : Store) : Deed → Store
  | call q => (s.call q).2
  | seed c => s.seed c
  | takeId => s.takeId.2
  | failNext verb reason => s.failNext verb reason
  | setHealth id health => s.setHealth id health
  | setHealthWhere filter health => s.setHealthWhere filter health
  | setHealthOnCreate health => { s with healthOnCreate := health }
  | clearLog => s.clearLog

/-- The id of the container that comes with a deed, if one does. -/
def brings (s : Store) : Deed → List String
  | call (.create b) => (s.call (.create b)).1.toOption.toList
  | seed c => [c.id]
  | _ => []

/-- The id of the container that a deed is about, if it is about one that exists. -/
def target? : Deed → Option String
  | call q => q.target?
  | setHealth id _ => some id
  | _ => none

/-- What is asked of a deed: a container that is put in has an id and a name that are not in use,
    and the id that a new container is given is not in use either. -/
def Fair (s : Store) : Deed → Prop
  | call (.create _) => ∀ c ∈ s.containers, c.id ≠ s.supply.next
  | seed c => ∀ d ∈ s.containers, d.id ≠ c.id ∧ d.name ≠ c.name
  | _ => True

end Deed

/-! ### Lists of containers -/

/-- Taking an element away does nothing to those that are selected otherwise. -/
theorem filter_eraseP {α : Type} {p : α → Bool} (xs : List α) :
    (xs.eraseP p).filter (!p ·) = xs.filter (!p ·) := by
  induction xs with
  | nil => rfl
  | cons x xs ih =>
      by_cases hx : p x = true
      · rw [List.eraseP_cons_of_pos hx, List.filter_cons_of_neg (by simp [hx])]
      · rw [List.eraseP_cons_of_neg hx, List.filter_cons, List.filter_cons, ih]

/-- Changing a container does nothing to those with other ids. -/
theorem filter_changeFirst {id : String} {f : Container → Container} (hf : ∀ c, (f c).id = c.id)
    (cs : List Container) :
    (Store.changeFirst id f cs).filter (·.id ≠ id) = cs.filter (·.id ≠ id) := by
  induction cs with
  | nil => rfl
  | cons c cs ih =>
      rw [Store.changeFirst]
      by_cases hc : c.id = id
      · rw [if_pos hc, List.filter_cons_of_neg (by simp [hf, hc]),
          List.filter_cons_of_neg (by simp [hc])]
      · rw [if_neg hc, List.filter_cons, List.filter_cons, ih]

/-- No container but one with the id is taken away. -/
theorem eq_of_not_mem_eraseP {id : String} {cs : List Container} {c : Container} (hc : c ∈ cs)
    (hgone : c ∉ cs.eraseP (·.id = id)) : c.id = id := by
  by_contra hne
  exact hgone ((List.mem_eraseP_of_neg (by simpa using hne)).mpr hc)

/-- An element that comes once more counts from then on. -/
theorem dedup_concat {α : Type} [DecidableEq α] (xs : List α) (a : α) :
    (xs ++ [a]).dedup = xs.dedup.filter (· ≠ a) ++ [a] := by
  induction xs with
  | nil => rfl
  | cons x xs ih =>
      rw [List.cons_append]
      by_cases hx : x ∈ xs
      · rw [List.dedup_cons_of_mem (List.mem_append_left _ hx), List.dedup_cons_of_mem hx, ih]
      · rw [List.dedup_cons_of_notMem hx]
        by_cases ha : x = a
        · rw [List.dedup_cons_of_mem (by simp [ha]), ih, List.filter_cons_of_neg (by simp [ha])]
        · rw [List.dedup_cons_of_notMem (by simp [hx, ha]), ih,
            List.filter_cons_of_pos (by simp [ha]), List.cons_append]

section Health

variable {α : Type} {g : Container → α} (hg : ∀ c health, g { c with health := health } = g c)
include hg

/-- Setting the health of a container changes nothing else of it. -/
theorem map_setHealth (s : Store) (id : String) (health : Option Health) :
    (s.setHealth id health).containers.map g = s.containers.map g := by
  rw [Store.setHealth, Request.map_changeFirst fun c => hg c health]

theorem map_setHealthWhere (s : Store) (filter : LabelFilter) (health : Option Health) :
    (s.setHealthWhere filter health).containers.map g = s.containers.map g := by
  rw [Store.setHealthWhere, List.map_map]
  refine List.map_congr_left fun c _ => ?_
  by_cases hc : filter.accepts c.labels = true
  · rw [Function.comp_apply, if_pos hc, hg]
  · rw [Function.comp_apply, if_neg hc]

end Health

/-! ### What a deed does -/

namespace Request

/-- What a request that succeeds does to the ids. -/
theorem ids_effect_cases (q : Request) (birth : Health) (fresh : String) (cs : List Container) :
    (∃ b, q = create b ∧ (q.effect birth fresh cs).map (·.id) = cs.map (·.id) ++ [fresh]) ∨
    (∃ id, q = remove id ∧ q.effect birth fresh cs = cs.eraseP (·.id = id)) ∨
    ((∀ b, q ≠ create b) ∧ (q.effect birth fresh cs).map (·.id) = cs.map (·.id)) := by
  cases q with
  | create b => exact Or.inl ⟨b, rfl, by rw [effect, List.map_append]; rfl⟩
  | remove id => exact Or.inr (Or.inl ⟨id, rfl, rfl⟩)
  | list _ => exact Or.inr (Or.inr ⟨by simp, rfl⟩)
  | _ => exact Or.inr (Or.inr ⟨by simp, map_changeFirst (changed_id _) cs⟩)

/-- A request about one container leaves the others alone. -/
theorem filter_effect {q : Request} {id : String} (h : q.target? = some id) (birth : Health)
    (fresh : String) (cs : List Container) :
    (q.effect birth fresh cs).filter (·.id ≠ id) = cs.filter (·.id ≠ id) := by
  by_cases hremove : ∃ i, q = remove i
  · rcases hremove with ⟨i, rfl⟩
    cases h
    simpa [effect] using filter_eraseP (p := fun c : Container => c.id = id) cs
  · rw [effect_of_target h fun i hi => hremove ⟨i, hi⟩]
    exact filter_changeFirst q.changed_id cs

end Request

namespace Deed

variable {s : Store} {d : Deed}

/-- A deed leaves the ids as they are, or a container comes behind the others, or one goes. -/
theorem ids_cases (s : Store) (d : Deed) :
    (d.brings s = [] ∧ (d.after s).containers.map (·.id) = s.containers.map (·.id)) ∨
    (∃ id, d.brings s = [id] ∧ (d.Fair s → ∀ c ∈ s.containers, c.id ≠ id) ∧
      (d.after s).containers.map (·.id) = s.containers.map (·.id) ++ [id]) ∨
    ∃ id c, d = call (.remove id) ∧ (s.call (.remove id)).1 = .ok () ∧
      s.containers.find? (·.id = id) = some c ∧ c.state.isRunning = false ∧
      (d.after s).containers = s.containers.eraseP (·.id = id) := by
  cases d with
  | call q =>
      simp only [after]
      cases hcall : (s.call q).1 with
      | error cause =>
          refine Or.inl ⟨?_, by rw [(Store.call_error hcall).1]⟩
          cases q with
          | create b => rw [brings, hcall]; rfl
          | _ => rfl
      | ok answer =>
          rcases Store.call_ok hcall with ⟨hadm, hafter, hborn⟩
          have hcontainers : (s.call q).2.containers =
              q.effect s.healthOnCreate s.supply.next s.containers := by
            rw [hafter]
            rfl
          rw [hcontainers]
          rcases q.ids_effect_cases s.healthOnCreate s.supply.next s.containers with
            ⟨b, rfl, hids⟩ | ⟨id, rfl, heffect⟩ | ⟨hother, hids⟩
          · have hfresh : answer = s.supply.next := hborn ""
            refine Or.inr (Or.inl ⟨answer, ?_, ?_, hfresh ▸ hids⟩)
            · rw [brings, hcall]
              rfl
            · exact fun hfair c hc => hfresh ▸ hfair c hc
          · rcases hadm with ⟨c, hfound, hstopped⟩
            exact Or.inr (Or.inr ⟨id, c, rfl, hcall, hfound, hstopped, heffect⟩)
          · refine Or.inl ⟨?_, hids⟩
            cases q with
            | create b => exact absurd rfl (hother b)
            | _ => rfl
  | seed c =>
      exact Or.inr (Or.inl ⟨c.id, rfl, fun hfair d hd => (hfair d hd).1, List.map_append⟩)
  | setHealth id health => exact Or.inl ⟨rfl, map_setHealth (fun _ _ => rfl) s id health⟩
  | setHealthWhere filter health =>
      exact Or.inl ⟨rfl, map_setHealthWhere (fun _ _ => rfl) s filter health⟩
  | _ => exact Or.inl ⟨rfl, rfl⟩

/-- Whatever is done with a store, names stay distinct. -/
theorem names_after (hfair : d.Fair s) (hids : (s.containers.map (·.id)).Nodup)
    (hnames : (s.containers.map (·.name)).Nodup) :
    ((d.after s).containers.map (·.name)).Nodup := by
  cases d with
  | call q =>
      rw [after]
      cases hcall : (s.call q).1 with
      | error cause =>
          rw [(Store.call_error hcall).1]
          exact hnames
      | ok answer =>
          rcases Store.call_ok hcall with ⟨hadm, hafter, _⟩
          have hkept := Request.names_effect hadm (ids_coe _ ▸ Multiset.coe_nodup.mpr hids)
            (names_coe _ ▸ Multiset.coe_nodup.mpr hnames) s.healthOnCreate
            s.supply.next
          rw [names_coe] at hkept
          rw [hafter]
          exact Multiset.coe_nodup.mp hkept
  | seed c =>
      rw [after, Store.seed, List.map_append, List.map_singleton, List.nodup_append]
      refine ⟨hnames, List.nodup_singleton _, fun name hname other hother => ?_⟩
      rcases List.mem_map.mp hname with ⟨e, he, rfl⟩
      rw [List.mem_singleton.mp hother]
      exact (hfair e he).2
  | setHealth id health =>
      rw [after, map_setHealth fun _ _ => rfl]
      exact hnames
  | setHealthWhere filter health =>
      rw [after, map_setHealthWhere fun _ _ => rfl]
      exact hnames
  | _ => exact hnames

/-- A deed that is about one container leaves the others alone. -/
theorem others_after {id : String} (h : d.target? = some id) :
    (d.after s).containers.filter (·.id ≠ id) = s.containers.filter (·.id ≠ id) := by
  cases d with
  | call q =>
      rw [after]
      cases hcall : (s.call q).1 with
      | error cause => rw [(Store.call_error hcall).1]
      | ok answer =>
          rw [(Store.call_ok hcall).2.1]
          exact Request.filter_effect h _ _ _
  | setHealth i health =>
      cases h
      exact filter_changeFirst (f := fun c => { c with health := health }) (fun _ => rfl) _
  | _ => cases h

end Deed

/-! ### Lives -/

/-- The stores that deeds lead to from one without containers, whatever the ids that it gives out,
    each with the ids of the containers that have come, in the order in which they came. -/
inductive Life : List String → Store → Prop
  | begin (nth : Nat → String) : Life [] (.blank nth)
  | next {born : List String} {s : Store} (d : Deed) : Life born s → d.Fair s →
    Life (born ++ d.brings s) (d.after s)

/-- Names are distinct, and ids stand in the order in which they came; one that has come more than
    once counts from the last time. -/
structure Seniority (born : List String) (s : Store) : Prop where
  names : (s.containers.map (·.name)).Nodup
  order : (s.containers.map (·.id)).Sublist born.dedup

variable {born : List String} {s : Store} {d : Deed}

theorem Seniority.nodup (h : Seniority born s) : (s.containers.map (·.id)).Nodup :=
  h.order.nodup (List.nodup_dedup born)

/-- What is done with a store keeps it in order. -/
theorem Seniority.after (h : Seniority born s) (hfair : d.Fair s) :
    Seniority (born ++ d.brings s) (d.after s) := by
  refine ⟨Deed.names_after hfair h.nodup h.names, ?_⟩
  rcases d.ids_cases s with ⟨hnone, hids⟩ | ⟨id, hcomes, hnew, hids⟩ |
    ⟨id, c, rfl, _, _, _, hgoes⟩
  · rw [hnone, hids, List.append_nil]
    exact h.order
  · -- The id is not in use, so it is last wherever it has been before.
    have hout : id ∉ s.containers.map (·.id) := fun hmem => by
      rcases List.mem_map.mp hmem with ⟨c, hc, hid⟩
      exact hnew hfair c hc hid
    have hkept : (s.containers.map (·.id)).filter (· ≠ id) = s.containers.map (·.id) :=
      List.filter_eq_self.mpr fun i hi => by
        have hne : i ≠ id := fun heq => hout (heq ▸ hi)
        simpa using hne
    rw [hcomes, hids, dedup_concat, ← hkept]
    exact (h.order.filter _).append (List.Sublist.refl _)
  · rw [hgoes, show (Deed.call (.remove id)).brings s = [] from rfl, List.append_nil]
    exact (List.eraseP_sublist.map _).trans h.order

/-- Every store in a life is in order. -/
theorem Life.seniority (h : Life born s) : Seniority born s := by
  induction h with
  | begin => exact ⟨List.nodup_nil, List.Sublist.refl _⟩
  | next d _ hfair ih => exact ih.after hfair

/-- A container goes only by its own removal, and is not running then. -/
theorem Deed.gone (hnodup : (s.containers.map (·.id)).Nodup) {c : Container}
    (hc : c ∈ s.containers) (hgone : ∀ e ∈ (d.after s).containers, e.id ≠ c.id) :
    d = call (.remove c.id) ∧ (s.call (.remove c.id)).1 = .ok () ∧ c.state.isRunning = false := by
  have hmem : c.id ∈ s.containers.map (·.id) := List.mem_map_of_mem hc
  have hnot : c.id ∉ (d.after s).containers.map (·.id) := fun hmem => by
    rcases List.mem_map.mp hmem with ⟨e, he, hid⟩
    exact hgone e he hid
  rcases d.ids_cases s with ⟨_, hids⟩ | ⟨id, _, _, hids⟩ |
    ⟨id, e, rfl, hok, hfound, hstopped, hgoes⟩
  · exact absurd (hids ▸ hmem) hnot
  · exact absurd (hids ▸ List.mem_append_left _ hmem) hnot
  · have hid : c.id = id := eq_of_not_mem_eraseP hc fun hmem => hgone c (hgoes ▸ hmem) rfl
    subst hid
    have hsame : e = c := List.inj_on_of_nodup_map hnodup (List.mem_of_find?_eq_some hfound) hc
      (by simpa using List.find?_some hfound)
    exact ⟨rfl, hok, hsame ▸ hstopped⟩

/-- A container comes only by its own creation or by being put in. -/
theorem Deed.come {c : Container} (hc : c ∈ (d.after s).containers)
    (hnew : ∀ e ∈ s.containers, e.id ≠ c.id) : d.brings s = [c.id] := by
  have hmem : c.id ∈ (d.after s).containers.map (·.id) := List.mem_map_of_mem hc
  have hnot : c.id ∉ s.containers.map (·.id) := fun hmem => by
    rcases List.mem_map.mp hmem with ⟨e, he, hid⟩
    exact hnew e he hid
  rcases d.ids_cases s with ⟨_, hids⟩ | ⟨id, hcomes, _, hids⟩ | ⟨id, e, rfl, _, _, _, hgoes⟩
  · exact absurd (hids ▸ hmem) hnot
  · rw [hids, List.mem_append] at hmem
    rcases hmem with hmem | hmem
    · exact absurd hmem hnot
    · rw [hcomes, List.mem_singleton.mp hmem]
  · rw [hgoes] at hc
    exact absurd (List.mem_map_of_mem (List.mem_of_mem_eraseP hc)) hnot

/-- In every store in a life ids and names are distinct, and containers stand in the order in which
    they came. Whatever is done next, a container goes only by its own removal while it is not
    running, one comes only by creation or by being put in, and what is done about one container
    leaves the others as they were, where they were. -/
theorem Life.census (h : Life born s) :
    (s.containers.map (·.id)).Nodup ∧ (s.containers.map (·.name)).Nodup ∧
    (s.containers.map (·.id)).Sublist born.dedup ∧
    ∀ d : Deed,
      (∀ c ∈ s.containers, (∀ e ∈ (d.after s).containers, e.id ≠ c.id) →
        d = .call (.remove c.id) ∧ (s.call (.remove c.id)).1 = .ok () ∧
          c.state.isRunning = false) ∧
      (∀ c ∈ (d.after s).containers, (∀ e ∈ s.containers, e.id ≠ c.id) →
        d.brings s = [c.id]) ∧
      ∀ id, d.target? = some id →
        (d.after s).containers.filter (·.id ≠ id) = s.containers.filter (·.id ≠ id) := by
  have hnodup := h.seniority.nodup
  exact ⟨hnodup, h.seniority.names, h.seniority.order, fun d =>
    ⟨fun c hc hgone => Deed.gone hnodup hc hgone, fun c hc hnew => Deed.come hc hnew,
      fun id htarget => Deed.others_after htarget⟩⟩

/-! ### Two that are left of three -/

namespace Sample

/-- A description with nothing but a name. -/
def named (name : String) : Blueprint := { Blueprint.blank with name }

/-- Two containers are created with another one put in between, and the first one is removed. -/
def errands : List Deed :=
  [.call (.create (named "first")), .seed container, .call (.create (named "second")),
    .call (.remove (Store.freshId 1))]

/-- The store that this leads to. -/
def survivors : Store := errands.foldl Deed.after .empty

end Sample

section Samples

open Sample

/-- The two containers that are left stand in the order in which they came, and the one that is
    running stays, whoever wants it removed. -/
theorem Life.census_sample : Life [Store.freshId 1, container.id, Store.freshId 2] survivors ∧
    survivors.containers.map (·.id) = [container.id, Store.freshId 2] ∧
    (survivors.containers.map (·.id)).Sublist
      [Store.freshId 1, container.id, Store.freshId 2].dedup ∧
    ∃ e ∈ ((Deed.call (.remove container.id)).after survivors).containers, e.id = container.id := by
  have hseed : ∀ d ∈ (errands.take 1 |>.foldl Deed.after .empty).containers,
      d.id ≠ container.id ∧ d.name ≠ container.name := by decide
  have hsecond : ∀ c ∈ (errands.take 2 |>.foldl Deed.after .empty).containers,
      c.id ≠ Store.freshId 2 := by decide
  have hfirst : Life [Store.freshId 1] (errands.take 1 |>.foldl Deed.after .empty) :=
    .next (.call (.create (named "first"))) (.begin Store.freshId) fun _ hc => absurd hc List.not_mem_nil
  have hput : Life [Store.freshId 1, container.id] (errands.take 2 |>.foldl Deed.after .empty) :=
    hfirst.next (.seed container) hseed
  have hboth : Life [Store.freshId 1, container.id, Store.freshId 2]
      (errands.take 3 |>.foldl Deed.after .empty) :=
    hput.next (.call (.create (named "second"))) hsecond
  have hlife : Life [Store.freshId 1, container.id, Store.freshId 2] survivors :=
    hboth.next (.call (.remove (Store.freshId 1))) trivial
  rcases hlife.census with ⟨_, _, horder, hnext⟩
  have hleft : survivors.containers.map (·.id) = [container.id, Store.freshId 2] := by decide
  refine ⟨hlife, hleft, horder, ?_⟩
  by_contra hgone
  have hgoes := (hnext (.call (.remove container.id))).1 container (by decide)
    fun e he hid => hgone ⟨e, he, hid⟩
  exact absurd hgoes.2.2 (by decide)

end Samples

end Fleet
