import Fleet.Order
import Mathlib.Data.List.Perm.Subperm
import Mathlib.Logic.Relation

/-!
# What the dependency order is

The order is computed by counting, and what is wanted of it is about names: all services
of the project, each once, and each after everything it depends on. The two meet in what
a waiting service counts, which is how many of its dependencies have not been placed
(`Waiting.Counts`). Placing a service takes one off the count of those that need it, since
names are distinct and no service names a dependency twice.

## Main definitions

* `Ordered`: Services each of which comes after everything it depends on.
* `Waiting.Counts`: A service counts its open dependencies.
* `Project.Orders`: The services of a project, in an order of their dependencies.
* `Project.Disordered`: A project that cannot be put in order.

## Theorems

* `Ordered.before`: What a service in order depends on comes before it.
* `Ordered.closed`: What services in order depend on is among them.
* `release_counts`: Placing a service keeps the counts.
* `placeReady_ordered`: What is placed is in order.
* `Project.orders_of_ok`: The order of a project, if there is one, is one.
* `Project.Orders.not_disordered`: A project that has been put in order can be.
-/

namespace Fleet

theorem Dict.contains_iff {α : Type} {d : Dict α} {key : String} :
    d.contains key = true ↔ key ∈ d.keys := by
  have hlookup : ∀ entries : List (String × α),
      (Dict.lookup key entries).isSome = true ↔ key ∈ entries.map (·.1) := by
    intro entries
    induction entries with
    | nil => exact ⟨nofun, nofun⟩
    | cons entry rest ih =>
        rw [Dict.lookup, List.map_cons, List.mem_cons]
        by_cases hkey : entry.1 = key
        · rw [if_pos hkey]
          exact ⟨fun _ => Or.inl hkey.symm, fun _ => rfl⟩
        · rw [if_neg hkey, ih]
          exact ⟨Or.inr, fun h => h.resolve_left fun heq => hkey heq.symm⟩
  exact hlookup d.entries

theorem Dict.nodup_keys {α : Type} (d : Dict α) : d.keys.Nodup := by
  rw [keys, List.Nodup, List.pairwise_map]
  refine d.increasing.imp fun {a b} hlt heq => ?_
  rw [heq] at hlt
  exact String.lt_irrefl _ hlt

namespace Service

theorem needs_iff {service : Service} {name : String} :
    service.needs name = true ↔ name ∈ service.dependencies := Dict.contains_iff

theorem healthDependencies_subset (service : Service) :
    service.healthDependencies ⊆ service.dependencies :=
  (List.filter_sublist.map _).subset

theorem nodup_dependencies (service : Service) : service.dependencies.Nodup :=
  service.dependsOn.nodup_keys

theorem nodup_healthDependencies (service : Service) : service.healthDependencies.Nodup :=
  service.nodup_dependencies.sublist (List.filter_sublist.map _)

/-- The dependencies of a service that are not among the names placed. -/
def openBeside (service : Service) (placed : List String) : List String :=
  service.dependencies.filter (· ∉ placed)

/-- A name that is placed closes a dependency of the services that need it. -/
theorem length_openBeside (service : Service) {placed : List String} {name : String}
    (hname : name ∉ placed) : (service.openBeside placed).length =
      (service.openBeside (name :: placed)).length + if service.needs name then 1 else 0 := by
  have hnodup : (service.openBeside placed).Nodup := service.nodup_dependencies.filter _
  have hopen : service.openBeside (name :: placed) = (service.openBeside placed).erase name := by
    rw [hnodup.erase_eq_filter, openBeside, openBeside, List.filter_filter]
    refine List.filter_congr fun d _ => ?_
    simp only [List.mem_cons, not_or, Bool.decide_and, decide_not]
    rfl
  by_cases hneeds : service.needs name = true
  · have hmem : name ∈ service.openBeside placed :=
      List.mem_filter.mpr ⟨needs_iff.mp hneeds, decide_eq_true hname⟩
    rw [if_pos hneeds, hopen, List.length_erase_of_mem hmem]
    have := List.length_pos_of_mem hmem
    omega
  · have hmem : name ∉ service.openBeside placed := fun h =>
      hneeds (needs_iff.mpr (List.mem_filter.mp h).1)
    rw [if_neg hneeds, hopen, List.erase_of_not_mem hmem]
    rfl

end Service

/-- Services each of which comes after everything it depends on, the names given having come
    before them. -/
def Ordered : List String → List Service → Prop
  | _, [] => True
  | placed, service :: rest =>
    (∀ name ∈ service.dependencies, name ∈ placed) ∧ Ordered (service.name :: placed) rest

theorem Ordered.append_left {placed : List String} {before after : List Service}
    (h : Ordered placed (before ++ after)) : Ordered placed before := by
  induction before generalizing placed with
  | nil => exact trivial
  | cons first rest ih => exact ⟨h.1, ih h.2⟩

/-- What a service in order depends on comes before it. -/
theorem Ordered.before {placed : List String} {before after : List Service} {service : Service}
    (h : Ordered placed (before ++ service :: after)) {name : String}
    (hname : name ∈ service.dependencies) :
    name ∈ placed ∨ name ∈ before.map (·.name) := by
  induction before generalizing placed with
  | nil => exact Or.inl (h.1 name hname)
  | cons first rest ih =>
      rw [List.map_cons, List.mem_cons]
      rcases ih h.2 with hplaced | hrest
      · exact (List.mem_cons.mp hplaced).elim (fun heq => Or.inr (Or.inl heq)) Or.inl
      · exact Or.inr (Or.inr hrest)

theorem Ordered.concat {placed : List String} {services : List Service} {service : Service}
    (h : Ordered placed (services ++ [service])) : Ordered placed services ∧
      ∀ name ∈ service.dependencies, name ∈ placed ∨ name ∈ services.map (·.name) :=
  ⟨h.append_left, fun _ hname => h.before hname⟩

/-- What services in order depend on is among them, or has come before. -/
theorem Ordered.closed {placed : List String} {services : List Service}
    (h : Ordered placed services) {service : Service} (hservice : service ∈ services)
    {name : String} (hname : name ∈ service.dependencies) :
    name ∈ placed ∨ name ∈ services.map (·.name) := by
  rcases List.append_of_mem hservice with ⟨before, after, rfl⟩
  rw [List.map_append]
  exact (h.before hname).imp_right (List.mem_append_left _)

/-! ### Releasing -/

/-- A service counts its open dependencies, and has some. -/
def Waiting.Counts (placed : List String) (w : Waiting) : Prop :=
  w.openCount = (w.service.openBeside placed).length ∧ 0 < w.openCount

theorem release_perm (name : String) (waiting : List Waiting) :
    ((release name waiting).1 ++ (release name waiting).2.map (·.service)).Perm
      (waiting.map (·.service)) := by
  induction waiting with
  | nil => exact List.Perm.refl _
  | cons w rest ih =>
      simp only [release]
      split
      · split
        · exact ih.cons w.service
        · exact List.perm_middle.trans (ih.cons w.service)
      · exact List.perm_middle.trans (ih.cons w.service)

/-- Placing a service keeps the counts, and leaves no dependency open of those that it makes
    ready. -/
theorem release_counts {placed : List String} {name : String} (hname : name ∉ placed)
    {waiting : List Waiting} (h : ∀ w ∈ waiting, w.Counts placed) :
    (∀ service ∈ (release name waiting).1,
      ∀ dependency ∈ service.dependencies, dependency ∈ name :: placed) ∧
    ∀ w ∈ (release name waiting).2, w.Counts (name :: placed) := by
  induction waiting with
  | nil =>
      exact ⟨fun _ hs => absurd hs List.not_mem_nil, fun _ hw => absurd hw List.not_mem_nil⟩
  | cons w rest ih =>
      rcases List.forall_mem_cons.mp h with ⟨⟨hcount, hpos⟩, hrest⟩
      rcases ih hrest with ⟨hready, hwaiting⟩
      have hlength := w.service.length_openBeside hname
      simp only [release]
      by_cases hneeds : w.service.needs name = true
      · rw [if_pos hneeds] at hlength
        rw [if_pos hneeds]
        by_cases hlast : w.openCount - 1 = 0
        · rw [if_pos hlast]
          refine ⟨List.forall_mem_cons.mpr ⟨?_, hready⟩, hwaiting⟩
          intro dependency hdependency
          have hnil : w.service.openBeside (name :: placed) = [] :=
            List.eq_nil_of_length_eq_zero (by omega)
          have hopen := List.filter_eq_nil_iff.mp hnil dependency hdependency
          rwa [decide_eq_true_eq, not_not] at hopen
        · rw [if_neg hlast]
          have hless : w.openCount - 1 = (w.service.openBeside (name :: placed)).length := by omega
          exact ⟨hready, List.forall_mem_cons.mpr ⟨⟨hless, Nat.pos_of_ne_zero hlast⟩, hwaiting⟩⟩
      · rw [if_neg hneeds] at hlength
        rw [if_neg hneeds]
        have hsame : w.openCount = (w.service.openBeside (name :: placed)).length :=
          hcount.trans hlength
        exact ⟨hready, List.forall_mem_cons.mpr ⟨⟨hsame, hpos⟩, hwaiting⟩⟩

/-! ### Placing -/

/-- What is placed was in the queue or waiting. -/
theorem placeReady_subperm (turns : Nat) (queue : List Service) (waiting : List Waiting) :
    (placeReady turns queue waiting).Subperm (queue ++ waiting.map (·.service)) := by
  induction turns generalizing queue waiting with
  | zero => exact List.nil_subperm
  | succ turns ih =>
      cases queue with
      | nil => exact List.nil_subperm
      | cons service queue =>
          rw [placeReady, List.cons_append, List.subperm_cons]
          refine (ih _ _).trans (List.Perm.subperm ?_)
          rw [List.append_assoc]
          exact (release_perm service.name waiting).append_left queue

/-- What is placed is in order, given that no dependency is open of the services in the queue. -/
theorem placeReady_ordered (turns : Nat) {queue : List Service} {waiting : List Waiting}
    {placed : List String}
    (hnodup : (placed ++ (queue ++ waiting.map (·.service)).map (·.name)).Nodup)
    (hqueue : ∀ service ∈ queue, ∀ name ∈ service.dependencies, name ∈ placed)
    (hwaiting : ∀ w ∈ waiting, w.Counts placed) :
    Ordered placed (placeReady turns queue waiting) := by
  induction turns generalizing queue waiting placed with
  | zero => exact trivial
  | succ turns ih =>
      cases queue with
      | nil => exact trivial
      | cons service queue =>
          rcases List.forall_mem_cons.mp hqueue with ⟨hservice, hqueue⟩
          rw [List.cons_append, List.map_cons] at hnodup
          have hnodup' := (List.perm_middle.nodup_iff).mp hnodup
          have hname : service.name ∉ placed := fun hmem =>
            (List.nodup_cons.mp hnodup').1 (List.mem_append_left _ hmem)
          rcases release_counts hname hwaiting with ⟨hready, hcounts⟩
          refine ⟨hservice, ih ?_ ?_ hcounts⟩
          · -- The names are those from before, in another order.
            have hperm : (queue ++ (release service.name waiting).1 ++
                (release service.name waiting).2.map (·.service)).Perm
                (queue ++ waiting.map (·.service)) := by
              rw [List.append_assoc]
              exact (release_perm service.name waiting).append_left queue
            have hnames := ((hperm.map (·.name)).append_left placed).cons service.name
            exact hnames.nodup_iff.mpr hnodup'
          · intro s hs name hdependency
            rcases List.mem_append.mp hs with hs | hs
            · exact List.mem_cons_of_mem _ (hqueue s hs name hdependency)
            · exact hready s hs name hdependency

theorem firstRepeat_eq_none {seen names : List String} (h : firstRepeat seen names = none) :
    names.Nodup ∧ ∀ name ∈ names, name ∉ seen := by
  induction names generalizing seen with
  | nil => exact ⟨List.nodup_nil, nofun⟩
  | cons name rest ih =>
      rw [firstRepeat] at h
      by_cases hseen : name ∈ seen
      · rw [if_pos hseen] at h
        cases h
      · rw [if_neg hseen] at h
        rcases ih h with ⟨hnodup, hrest⟩
        refine ⟨List.nodup_cons.mpr ⟨fun hmem => hrest name hmem List.mem_cons_self, hnodup⟩,
          List.forall_mem_cons.mpr ⟨hseen, fun other hother hmem => ?_⟩⟩
        exact hrest other hother (List.mem_cons_of_mem _ hmem)

namespace Project

/-- The services of a project, each once, in an order of their dependencies. -/
structure Orders (project : Project) (order : List Service) : Prop where
  distinct : (order.map (·.name)).Nodup
  perm : order.Perm project.services
  ordered : Ordered [] order

/-- The services that are ready in the beginning. -/
def readyFirst (project : Project) : List Service :=
  project.services.filter (·.dependsOn.isEmpty)

/-- The services that wait in the beginning. -/
def waitingFirst (project : Project) : List Waiting :=
  (project.services.filter (!·.dependsOn.isEmpty)).map fun service =>
    ⟨service, service.dependsOn.size⟩

/-- Every service is ready in the beginning or waits. -/
theorem first_perm (project : Project) :
    (project.readyFirst ++ project.waitingFirst.map (·.service)).Perm project.services := by
  rw [waitingFirst, List.map_map]
  exact (List.map_id _).symm ▸ List.filter_append_perm _ _

theorem dependencies_of_readyFirst {project : Project} {service : Service}
    (h : service ∈ project.readyFirst) : service.dependencies = [] := by
  have hempty : service.dependsOn.entries = [] :=
    List.isEmpty_iff.mp (List.mem_filter.mp h).2
  rw [Service.dependencies, Dict.keys, hempty, List.map_nil]

theorem counts_of_waitingFirst {project : Project} {w : Waiting}
    (h : w ∈ project.waitingFirst) : w.Counts [] := by
  rcases List.mem_map.mp h with ⟨service, hservice, rfl⟩
  have hnonempty : service.dependsOn.entries ≠ [] := by
    have := (List.mem_filter.mp hservice).2
    simpa [Dict.isEmpty] using this
  refine ⟨?_, List.length_pos_of_ne_nil hnonempty⟩
  have hall : service.openBeside [] = service.dependencies :=
    List.filter_eq_self.mpr fun name _ => decide_eq_true List.not_mem_nil
  rw [hall, Service.dependencies, Dict.keys, List.length_map]
  rfl

/-- The services in the order in which they become ready are in order. -/
theorem readyOrder_ordered {project : Project} (hnodup : project.names.Nodup) :
    Ordered [] project.readyOrder ∧ project.readyOrder.Subperm project.services := by
  have hperm := first_perm project
  refine ⟨placeReady_ordered _ ?_ ?_ fun w => counts_of_waitingFirst,
    (placeReady_subperm _ _ _).trans hperm.subperm⟩
  · exact (hperm.map Service.name).nodup_iff.mpr hnodup
  · intro service hservice name hname
    rw [dependencies_of_readyFirst hservice] at hname
    exact hname

/-- The order of a project, if there is one, has all its services, each once and after everything
    it depends on. -/
theorem orders_of_ok {project : Project} {order : List Service}
    (h : project.inDependencyOrder = .ok order) : project.Orders order := by
  simp only [inDependencyOrder] at h
  cases hrepeat : firstRepeat [] project.names with
  | some name =>
      rw [hrepeat] at h
      cases h
  | none =>
      rw [hrepeat] at h
      have hnodup := (firstRepeat_eq_none hrepeat).1
      rcases readyOrder_ordered hnodup with ⟨hordered, hsubperm⟩
      cases hunknown : project.firstUnknown with
      | some unknown =>
          rw [hunknown] at h
          cases h
      | none =>
          rw [hunknown] at h
          by_cases hlength : project.readyOrder.length = project.services.length
          · rw [if_pos hlength] at h
            rw [← Except.ok.inj h]
            have hperm := hsubperm.perm_of_length_le (Nat.le_of_eq hlength.symm)
            exact ⟨(hperm.map Service.name).nodup_iff.mpr hnodup, hperm, hordered⟩
          · rw [if_neg hlength] at h
            cases h

/-- The services of a project that has an order have distinct names. -/
theorem Orders.nodup_names {project : Project} {order : List Service} (h : project.Orders order) :
    project.names.Nodup := (h.perm.map Service.name).nodup_iff.mp h.distinct

/-- A service of a project depends on a name. -/
def Needs (project : Project) (name other : String) : Prop :=
  ∃ service ∈ project.services, service.name = name ∧ other ∈ service.dependencies

/-- A project that cannot be put in order: two services have the same name, a service depends on
    one that is not declared, or on itself by way of others. -/
def Disordered (project : Project) : Prop :=
  ¬project.names.Nodup ∨
    (∃ service ∈ project.services, ∃ name ∈ service.dependencies, name ∉ project.names) ∨
    ∃ name, Relation.TransGen project.Needs name name

/-- What is needed comes earlier in the order. -/
theorem Orders.idxOf_lt {project : Project} {order : List Service} (h : project.Orders order)
    {name other : String} (hneeds : project.Needs name other) :
    (order.map (·.name)).idxOf other < (order.map (·.name)).idxOf name := by
  rcases hneeds with ⟨service, hservice, rfl, hother⟩
  rcases List.append_of_mem (h.perm.mem_iff.mpr hservice) with ⟨before, after, rfl⟩
  have hbefore := (h.ordered.before hother).resolve_left List.not_mem_nil
  have hdistinct := h.distinct
  rw [List.map_append, List.map_cons] at hdistinct ⊢
  have hnew : service.name ∉ before.map (·.name) := fun hmem =>
    (List.nodup_append.mp hdistinct).2.2 _ hmem _ List.mem_cons_self rfl
  rw [List.idxOf_append_of_mem hbefore, List.idxOf_append_of_notMem hnew, List.idxOf_cons_self,
    Nat.add_zero]
  exact List.idxOf_lt_length_of_mem hbefore

/-- A project that has been put in order can be. -/
theorem Orders.not_disordered {project : Project} {order : List Service}
    (h : project.Orders order) : ¬project.Disordered := by
  have hnames : (order.map (·.name)).Perm project.names := h.perm.map _
  rintro (hrepeat | ⟨service, hservice, name, hname, hunknown⟩ | ⟨name, hcycle⟩)
  · exact hrepeat h.nodup_names
  · have hmem := h.ordered.closed (h.perm.mem_iff.mpr hservice) hname
    exact hunknown (hnames.mem_iff.mp (hmem.resolve_left List.not_mem_nil))
  · have hless : ∀ {other}, Relation.TransGen project.Needs name other →
        (order.map (·.name)).idxOf other < (order.map (·.name)).idxOf name := by
      intro other hneeds
      induction hneeds with
      | single hneeds => exact h.idxOf_lt hneeds
      | tail _ hneeds ih => exact Nat.lt_trans (h.idxOf_lt hneeds) ih
    exact Nat.lt_irrefl _ (hless hcycle)

end Project

end Fleet
