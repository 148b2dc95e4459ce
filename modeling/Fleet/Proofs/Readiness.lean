import Fleet.Proofs.Queue
import Mathlib.Data.Prod.Lex

/-!
# Who is ready first

An order of dependencies leaves many choices, and the queue of a project makes them: a
service comes when the last of its dependencies has been placed, and of those that become
ready together the one declared first. As it stands this is a recipe, where each service
depends on what the queue happened to hold. It can be said of the finished order alone,
since the place of the last dependency is a place in that order (`lastPlace`). So two
services are compared by these places, and where they are the same by their declarations
(`Project.precedence`).

While the queue is worked off this comparison already refers to the order that will come of
it, and therefore does not change on the way. That leaves one thing to see at each turn:
those that become ready have the service of that turn as their last dependency
(`Queued.lastPlace_of_released`), and everything placed or in the queue has an earlier one
(`Queued.lastPlace_lt`).

## Main definitions

* `lastPlace`: The place of the last dependency of a service in an order.
* `Project.precedence`: What decides between two services.
* `Project.Arranged`: What is placed or in the queue is in the order of readiness.

## Theorems

* `idxOf_lt_idxOf_iff`: Places in a list that ascends by some measure.
* `release_sublist`, `needs_of_mem_release`: What placing a service releases.
* `Project.Queued.arranged`: The queue is in the order of readiness.
* `Project.precedes_iff`: Which of two services comes first.
-/

namespace Fleet

/-! ### Places in a list -/

section Places

variable {α : Type} [DecidableEq α]

/-- In a list that ascends strictly by some measure, places are in the order of the measure. -/
theorem idxOf_lt_idxOf_iff {β : Type} [Preorder β] {measure : α → β} {xs : List α}
    (h : xs.Pairwise fun a b => measure a < measure b) {a b : α} (ha : a ∈ xs) (hb : b ∈ xs) :
    xs.idxOf a < xs.idxOf b ↔ measure a < measure b := by
  have hforward : ∀ {a b : α}, a ∈ xs → b ∈ xs → xs.idxOf a < xs.idxOf b →
      measure a < measure b := by
    intro a b ha hb hlt
    have := List.pairwise_iff_getElem.mp h _ _ (List.idxOf_lt_length_of_mem ha)
      (List.idxOf_lt_length_of_mem hb) hlt
    rwa [List.getElem_idxOf, List.getElem_idxOf] at this
  refine ⟨hforward ha hb, fun hlt => ?_⟩
  rcases Nat.lt_trichotomy (xs.idxOf a) (xs.idxOf b) with hbefore | hsame | hbehind
  · exact hbefore
  · obtain rfl := (List.idxOf_inj ha).mp hsame
    exact absurd hlt (lt_irrefl _)
  · exact absurd hlt (lt_asymm (hforward hb ha hbehind))

/-- The elements of a part of a list without repetition are in the order of their places. -/
theorem pairwise_idxOf_of_sublist {xs ys : List α} (h : ys.Sublist xs) (hnodup : xs.Nodup) :
    ys.Pairwise fun a b => xs.idxOf a < xs.idxOf b := by
  refine List.Pairwise.sublist h (List.pairwise_iff_getElem.mpr fun i j hi hj hij => ?_)
  rwa [hnodup.idxOf_getElem, hnodup.idxOf_getElem]

end Places

/-! ### The last dependency -/

/-- The place in an order of the last of the dependencies of a service, -1 if it has none. -/
def lastPlace (order : List Service) (service : Service) : Int :=
  match (service.dependencies.map fun name => (order.map (·.name)).idxOf name).max? with
  | some place => place
  | none => -1

theorem lastPlace_of_nil {order : List Service} {service : Service}
    (h : service.dependencies = []) : lastPlace order service = -1 := by
  rw [lastPlace, h]
  rfl

/-- The place is that of a dependency, and no dependency has a later one. -/
theorem lastPlace_cases (order : List Service) (service : Service) :
    (service.dependencies = [] ∧ lastPlace order service = -1) ∨
      ∃ name ∈ service.dependencies, lastPlace order service = (order.map (·.name)).idxOf name ∧
        ∀ other ∈ service.dependencies,
          (order.map (·.name)).idxOf other ≤ (order.map (·.name)).idxOf name := by
  cases hmax : (service.dependencies.map fun name => (order.map (·.name)).idxOf name).max? with
  | none =>
      have hnil := List.map_eq_nil_iff.mp (List.max?_eq_none_iff.mp hmax)
      exact Or.inl ⟨hnil, lastPlace_of_nil hnil⟩
  | some place =>
      rcases List.max?_eq_some_iff.mp hmax with ⟨hmem, hmost⟩
      rcases List.mem_map.mp hmem with ⟨name, hname, rfl⟩
      refine Or.inr ⟨name, hname, ?_, fun other hother => hmost _ (List.mem_map_of_mem hother)⟩
      rw [lastPlace, hmax]

/-! ### What is released -/

/-- A service is released by a dependency of its own. -/
theorem needs_of_mem_release {name : String} {waiting : List Waiting} {service : Service}
    (h : service ∈ (release name waiting).1) : service.needs name = true := by
  induction waiting with
  | nil => exact absurd h List.not_mem_nil
  | cons w rest ih =>
      simp only [release] at h
      by_cases hneeds : w.service.needs name = true
      · rw [if_pos hneeds] at h
        by_cases hlast : w.openCount - 1 = 0
        · rw [if_pos hlast] at h
          rcases List.mem_cons.mp h with rfl | hrest
          · exact hneeds
          · exact ih hrest
        · rw [if_neg hlast] at h
          exact ih h
      · rw [if_neg hneeds] at h
        exact ih h

/-- Releasing services does not change the order among them, nor among those that still wait. -/
theorem release_sublist (name : String) (waiting : List Waiting) :
    (release name waiting).1.Sublist (waiting.map (·.service)) ∧
      ((release name waiting).2.map (·.service)).Sublist (waiting.map (·.service)) := by
  induction waiting with
  | nil => exact ⟨List.Sublist.refl _, List.Sublist.refl _⟩
  | cons w rest ih =>
      simp only [release, List.map_cons]
      split
      · split
        · exact ⟨ih.1.cons_cons _, ih.2.cons _⟩
        · exact ⟨ih.1.cons _, ih.2.cons_cons _⟩
      · exact ⟨ih.1.cons _, ih.2.cons_cons _⟩

/-! ### The order of readiness -/

namespace Project

/-- What decides which of two services comes first in an order: the place of the last dependency,
    and then that of the declaration. -/
def precedence (project : Project) (order : List Service) (service : Service) : Int ×ₗ Nat :=
  toLex (lastPlace order service, project.services.idxOf service)

theorem precedence_lt_iff {project : Project} {order : List Service} {s t : Service} :
    project.precedence order s < project.precedence order t ↔
      lastPlace order s < lastPlace order t ∨ lastPlace order s = lastPlace order t ∧
        project.services.idxOf s < project.services.idxOf t := Prod.Lex.toLex_lt_toLex

/-- What is placed or in the queue is in the order of readiness, and what waits in the order in
    which it is declared. -/
structure Arranged (project : Project) (placed queue : List Service) (waiting : List Waiting) :
    Prop where
  inTurn : (placed.reverse ++ queue).Pairwise fun s t =>
    project.precedence project.readyOrder s < project.precedence project.readyOrder t
  declared : (waiting.map (·.service)).Sublist project.services

theorem nodup_services {project : Project} (h : project.names.Nodup) : project.services.Nodup :=
  h.of_map _

/-- Services with the same last place in the order in which they are declared. -/
theorem pairwise_precedence {project : Project} (hnodup : project.names.Nodup)
    {services : List Service} (hdeclared : services.Sublist project.services) {place : Int}
    (hplace : ∀ s ∈ services, lastPlace project.readyOrder s = place) :
    services.Pairwise fun s t =>
      project.precedence project.readyOrder s < project.precedence project.readyOrder t := by
  refine (pairwise_idxOf_of_sublist hdeclared (nodup_services hnodup)).imp_of_mem
    fun hs ht hlt => precedence_lt_iff.mpr (Or.inr ⟨?_, hlt⟩)
  rw [hplace _ hs, hplace _ ht]

namespace Queued

variable {project : Project} {placed queue : List Service} {waiting : List Waiting}
  {service : Service}

theorem map_readyOrder (h : project.Queued placed (service :: queue) waiting) :
    ∃ rest, project.readyOrder.map (·.name) =
      (placed.map (·.name)).reverse ++ service.name :: rest := by
  rw [h.place.readyOrder_eq, List.map_append, List.reverse_cons, List.map_append, List.map_reverse,
    List.append_assoc]
  exact ⟨_, rfl⟩

/-- What is placed next has the place after those before it. -/
theorem idxOf_next (hnodup : project.names.Nodup)
    (h : project.Queued placed (service :: queue) waiting) :
    (project.readyOrder.map (·.name)).idxOf service.name = placed.length := by
  rcases h.map_readyOrder with ⟨rest, hrest⟩
  have hnot : service.name ∉ (placed.map (·.name)).reverse :=
    fun hmem => h.fresh hnodup (List.mem_reverse.mp hmem)
  rw [hrest, List.idxOf_append_of_notMem hnot, List.idxOf_cons_self, List.length_reverse,
    List.length_map, Nat.add_zero]

theorem idxOf_lt_of_placed (h : project.Queued placed (service :: queue) waiting) {name : String}
    (hname : name ∈ placed.map (·.name)) :
    (project.readyOrder.map (·.name)).idxOf name < placed.length := by
  rcases h.map_readyOrder with ⟨rest, hrest⟩
  have hmem := List.mem_reverse.mpr hname
  have hlt := List.idxOf_lt_length_of_mem hmem
  rw [List.length_reverse, List.length_map] at hlt
  rwa [hrest, List.idxOf_append_of_mem hmem]

/-- Whatever is placed or ready was so before the next service has its turn. -/
theorem lastPlace_lt (hnodup : project.names.Nodup)
    (h : project.Queued placed (service :: queue) waiting) {other : Service}
    (hother : other ∈ placed ++ service :: queue) :
    lastPlace project.readyOrder other < placed.length := by
  rcases lastPlace_cases project.readyOrder other with ⟨_, hplace⟩ | ⟨name, hname, hplace, _⟩
  · omega
  · have hlt := h.idxOf_lt_of_placed ((h.counts hnodup).1 other hother name hname)
    omega

/-- What becomes ready by a turn has its last dependency placed in it. -/
theorem lastPlace_of_released (hnodup : project.names.Nodup)
    (h : project.Queued placed (service :: queue) waiting) {other : Service}
    (hother : other ∈ (release service.name waiting).1) :
    lastPlace project.readyOrder other = placed.length := by
  have hself := Service.needs_iff.mp (needs_of_mem_release hother)
  have hnext := h.idxOf_next hnodup
  rcases lastPlace_cases project.readyOrder other with ⟨hnil, _⟩ | ⟨name, hname, hplace, hmost⟩
  · rw [hnil] at hself
    exact absurd hself List.not_mem_nil
  · have hle := hmost service.name hself
    have hplaced := (h.place.counts hnodup).1 other
      (List.mem_append_right _ (List.mem_append_right _ hother)) name hname
    rcases List.mem_cons.mp hplaced with hlast | hearlier
    · rw [hplace, hlast, hnext]
    · have hlt := h.idxOf_lt_of_placed hearlier
      omega

/-- What is placed or in the queue is in the order of readiness, at every turn. -/
theorem arranged (hnodup : project.names.Nodup) (h : project.Queued placed queue waiting) :
    project.Arranged placed queue waiting := by
  induction h with
  | start =>
      have hplace : ∀ s ∈ project.readyFirst, lastPlace project.readyOrder s = -1 :=
        fun s hs => lastPlace_of_nil (dependencies_of_readyFirst hs)
      refine ⟨pairwise_precedence hnodup List.filter_sublist hplace, ?_⟩
      rw [waitingFirst, List.map_map]
      exact (List.map_id _).symm ▸ List.filter_sublist
  | @place placed service queue waiting h ih =>
      rcases release_sublist service.name waiting with ⟨hready, hwaiting⟩
      refine ⟨?_, hwaiting.trans ih.declared⟩
      rw [List.reverse_cons, List.append_assoc, List.singleton_append, ← List.cons_append,
        ← List.append_assoc, List.pairwise_append]
      refine ⟨ih.inTurn, pairwise_precedence hnodup (hready.trans ih.declared) fun s hs =>
        h.lastPlace_of_released hnodup hs, fun s hs t ht => precedence_lt_iff.mpr (Or.inl ?_)⟩
      have hs' : s ∈ placed ++ service :: queue := by
        rwa [List.mem_append, List.mem_reverse, ← List.mem_append] at hs
      rw [h.lastPlace_of_released hnodup ht]
      exact h.lastPlace_lt hnodup hs'

end Queued

theorem eq_readyOrder_of_ok {project : Project} {order : List Service}
    (h : project.inDependencyOrder = .ok order) : order = project.readyOrder := by
  simp only [inDependencyOrder] at h
  split at h
  · cases h
  · split at h
    · cases h
    · split at h
      · exact (Except.ok.inj h).symm
      · cases h

/-- Of two services in the order of a project the one comes first whose last dependency does, where
    having none comes before everything, and of those that become ready together the one that is
    declared first. -/
theorem precedes_iff {project : Project} {order : List Service}
    (h : project.inDependencyOrder = .ok order) {s t : Service} (hs : s ∈ order) (ht : t ∈ order) :
    (order.idxOf s < order.idxOf t ↔
      toLex (lastPlace order s, project.services.idxOf s) <
        toLex (lastPlace order t, project.services.idxOf t)) ∧
    (lastPlace order s = lastPlace order t →
      (order.idxOf s < order.idxOf t ↔ project.services.idxOf s < project.services.idxOf t)) := by
  have hnodup := (orders_of_ok h).nodup_names
  obtain rfl := eq_readyOrder_of_ok h
  rcases Queued.start.exists_dry with ⟨left, hdry⟩
  have hturn := (hdry.arranged hnodup).inTurn
  rw [List.reverse_reverse, List.append_nil] at hturn
  have hplaces := idxOf_lt_idxOf_iff hturn hs ht
  refine ⟨hplaces, fun hsame => hplaces.trans (precedence_lt_iff.trans ?_)⟩
  rw [hsame]
  exact ⟨fun h => h.elim (fun hlt => absurd hlt (lt_irrefl _)) And.right, fun h => Or.inr ⟨rfl, h⟩⟩

/-- A service that needs others to have been started. -/
def linked (name : String) (needed : List String) : Service :=
  { Service.plain name "box:1" with dependsOn := Dict.ofList (needed.map (·, .started)) }

/-- A project in which every service is declared before those it needs. -/
def relay : Project :=
  ⟨"demo", [linked "web" ["cache"], linked "worker" ["db"], linked "mail" ["db"], linked "db" [],
    linked "cache" []]⟩

/-- Two services that need the same one come as they are declared, and a third one that is declared
    before them comes behind them because what it needs does. -/
theorem precedes_in_relay :
    relay.inDependencyOrder = .ok relay.readyOrder ∧
    relay.readyOrder.idxOf (linked "worker" ["db"]) <
      relay.readyOrder.idxOf (linked "mail" ["db"]) ∧
    relay.readyOrder.idxOf (linked "mail" ["db"]) <
      relay.readyOrder.idxOf (linked "web" ["cache"]) := by
  have hok : relay.inDependencyOrder = .ok relay.readyOrder := rfl
  have hmem : linked "web" ["cache"] ∈ relay.readyOrder ∧
      linked "worker" ["db"] ∈ relay.readyOrder ∧ linked "mail" ["db"] ∈ relay.readyOrder := by
    decide +kernel
  refine ⟨hok, ?_, ?_⟩
  · exact ((precedes_iff hok hmem.2.1 hmem.2.2).2 (by decide +kernel)).mpr (by decide +kernel)
  · exact (precedes_iff hok hmem.2.2 hmem.1).1.mpr (by decide +kernel)

end Project

end Fleet
