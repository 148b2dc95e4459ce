import Fleet.Proofs.Acyclic

/-!
# The queue of a project

The order of a project is what has come out of its queue when that has run dry, so it says
nothing of the counts on the way. Where the queue stands is said by a relation (`Queued`)
that grows as the recursion does, one service placed at a time, and in which every state of
the queue can be looked at. Whatever is placed, each service that needs it waits at that time
and counts at least this dependency (`Queued.waits`): it cannot be ready or placed, because
those depend on nothing but what has been placed before.

The complaints are read off what they complain about, in the order in which descriptions
are checked: a name that is there twice, then a name that is not declared, and only then a
circle, which is what keeps a queue from emptying the project.

## Main definitions

* `Project.Queued`: Where the queue of a project stands.

## Theorems

* `Project.Queued.readyOrder_eq`: What is placed begins the order, and the queue gives the rest.
* `Project.Queued.waits`: Whatever needs a service that is placed counts it until then.
* `Project.inDependencyOrder_of_repeated`, `Project.inDependencyOrder_of_unknown`,
  `Project.inDependencyOrder_of_circle`: The complaints.
* `Project.dependency_order`: Which projects have an order, what it is, and what is said of others.
-/

namespace Fleet

/-- A name that is found again is there twice. -/
theorem two_le_count_of_firstRepeat {seen names : List String} {name : String}
    (h : firstRepeat seen names = some name) : 2 ≤ seen.count name + names.count name := by
  induction names generalizing seen with
  | nil => cases h
  | cons first rest ih =>
      rw [firstRepeat] at h
      by_cases hseen : first ∈ seen
      · rw [if_pos hseen] at h
        obtain rfl := Option.some.inj h
        have := List.count_pos_iff.mpr hseen
        rw [List.count_cons_self]
        omega
      · rw [if_neg hseen] at h
        have := ih h
        rw [List.count_cons] at this ⊢
        omega

namespace Project

/-- Where the queue of a project stands: the services placed, the last one first, those that are
    ready, and those that wait. -/
inductive Queued (project : Project) : List Service → List Service → List Waiting → Prop
  | start : Queued project [] project.readyFirst project.waitingFirst
  | place {placed : List Service} {service : Service} {queue : List Service}
      {waiting : List Waiting} : Queued project placed (service :: queue) waiting →
      Queued project (service :: placed) (queue ++ (release service.name waiting).1)
        (release service.name waiting).2

namespace Queued

variable {project : Project} {placed queue : List Service} {waiting : List Waiting}

/-- Every service is placed, ready or waiting. -/
theorem perm (h : project.Queued placed queue waiting) :
    (placed ++ (queue ++ waiting.map (·.service))).Perm project.services := by
  induction h with
  | start => exact first_perm project
  | @place placed service queue waiting _ ih =>
      refine List.Perm.trans ?_ ih
      rw [List.cons_append, List.cons_append, List.append_assoc]
      refine List.Perm.trans ?_ List.perm_middle.symm
      exact (((release_perm service.name waiting).append_left queue).append_left placed).cons _

/-- What is placed begins the order, and the queue gives the rest of it. -/
theorem readyOrder_eq (h : project.Queued placed queue waiting) :
    project.readyOrder = placed.reverse ++
      placeReady (project.services.length - placed.length) queue waiting := by
  induction h with
  | start => rfl
  | @place placed service queue waiting h ih =>
      have hlength := h.perm.length_eq
      rw [List.length_append, List.cons_append, List.length_cons] at hlength
      obtain ⟨turns, hturns⟩ : ∃ turns, project.services.length - placed.length = turns + 1 :=
        ⟨project.services.length - placed.length - 1, by omega⟩
      have hless : project.services.length - (service :: placed).length = turns := by
        rw [List.length_cons]
        omega
      rw [ih, hturns, hless, placeReady, List.reverse_cons, List.append_assoc]
      rfl

/-- The queue runs dry when everything in the order has been placed. -/
theorem exists_dry (h : project.Queued placed queue waiting) :
    ∃ left, project.Queued project.readyOrder.reverse [] left := by
  induction hturns : project.services.length - placed.length
    generalizing placed queue waiting with
  | zero =>
      have hlength := h.perm.length_eq
      rw [List.length_append, List.length_append] at hlength
      have hnil : queue = [] := List.eq_nil_of_length_eq_zero (by omega)
      have horder := h.readyOrder_eq
      rw [hturns, placeReady, List.append_nil] at horder
      rw [horder, List.reverse_reverse]
      exact ⟨waiting, hnil ▸ h⟩
  | succ turns ih =>
      cases queue with
      | nil =>
          have horder : project.readyOrder = placed.reverse ++ [] :=
            h.readyOrder_eq.trans (by rw [hturns]; rfl)
          rw [List.append_nil] at horder
          rw [horder, List.reverse_reverse]
          exact ⟨waiting, h⟩
      | cons service queue =>
          refine ih h.place ?_
          rw [List.length_cons]
          omega

/-- While names are distinct, the service that is to be placed has a name of its own. -/
theorem fresh (hnodup : project.names.Nodup) {service : Service}
    (h : project.Queued placed (service :: queue) waiting) :
    service.name ∉ placed.map (·.name) := by
  have hnames := (h.perm.map Service.name).nodup_iff.mpr hnodup
  rw [List.map_append, List.nodup_append] at hnames
  intro hmem
  exact hnames.2.2 _ hmem _ (List.mem_map_of_mem List.mem_cons_self) rfl

/-- While names are distinct, those placed or ready depend on what was placed, and those waiting
    count what was not. -/
theorem counts (hnodup : project.names.Nodup) (h : project.Queued placed queue waiting) :
    (∀ service ∈ placed ++ queue, ∀ name ∈ service.dependencies, name ∈ placed.map (·.name)) ∧
      ∀ w ∈ waiting, w.Counts (placed.map (·.name)) := by
  induction h with
  | start =>
      refine ⟨fun service hservice name hname => ?_, fun w => counts_of_waitingFirst⟩
      rw [dependencies_of_readyFirst hservice] at hname
      exact absurd hname List.not_mem_nil
  | @place placed service queue waiting h ih =>
      rcases release_counts (h.fresh hnodup) ih.2 with ⟨hready, hcounts⟩
      refine ⟨fun other hother name hname => ?_, hcounts⟩
      rcases List.mem_append.mp hother with hplaced | hqueue
      · refine List.mem_cons_of_mem _ (ih.1 other ?_ name hname)
        rcases List.mem_cons.mp hplaced with rfl | hplaced
        · exact List.mem_append_right _ List.mem_cons_self
        · exact List.mem_append_left _ hplaced
      · rcases List.mem_append.mp hqueue with hqueue | hreleased
        · refine List.mem_cons_of_mem _ (ih.1 other ?_ name hname)
          exact List.mem_append_right _ (List.mem_cons_of_mem _ hqueue)
        · exact hready other hreleased name hname

/-- Whatever needs the service that is to be placed waits, and counts at least that one. -/
theorem waits (hnodup : project.names.Nodup) {service : Service}
    (h : project.Queued placed (service :: queue) waiting) {other : Service}
    (hother : other ∈ project.services) (hneeds : other.needs service.name = true) :
    ∃ w ∈ waiting, w.service = other ∧ 0 < w.openCount := by
  have hname := Service.needs_iff.mp hneeds
  have hmem := h.perm.mem_iff.mpr hother
  rw [← List.append_assoc] at hmem
  rcases List.mem_append.mp hmem with hearly | hwaiting
  · exact absurd ((h.counts hnodup).1 other hearly service.name hname) (h.fresh hnodup)
  · rcases List.mem_map.mp hwaiting with ⟨w, hw, hsame⟩
    exact ⟨w, hw, hsame, ((h.counts hnodup).2 w hw).2⟩

end Queued

/-! ### Complaints -/

variable {project : Project}

/-- A project in which two services have the same name is refused for such a name. -/
theorem inDependencyOrder_of_repeated (h : ¬project.names.Nodup) :
    ∃ name, 2 ≤ project.names.count name ∧
      project.inDependencyOrder = .error (.duplicateService name) := by
  cases hrepeat : firstRepeat [] project.names with
  | none => exact absurd (firstRepeat_eq_none hrepeat).1 h
  | some name =>
      refine ⟨name, by simpa using two_le_count_of_firstRepeat hrepeat, ?_⟩
      rw [inDependencyOrder, hrepeat]

/-- Of a project with distinct names, a dependency that is not declared is reported. -/
theorem inDependencyOrder_of_unknown (hnodup : project.names.Nodup)
    (h : ¬∀ service ∈ project.services, ∀ name ∈ service.dependencies, name ∈ project.names) :
    ∃ service ∈ project.services, ∃ name ∈ service.dependencies, name ∉ project.names ∧
      project.inDependencyOrder = .error (.unknownDependency service.name name) := by
  cases hunknown : project.firstUnknown with
  | none => exact absurd (firstUnknown_eq_none_iff.mp hunknown) h
  | some unknown =>
      rcases List.exists_of_findSome?_eq_some hunknown with ⟨service, hservice, hfind⟩
      rcases Option.map_eq_some_iff.mp hfind with ⟨name, hname, rfl⟩
      have hnot := List.find?_some hname
      rw [decide_eq_true_eq] at hnot
      refine ⟨service, hservice, name, List.mem_of_find?_eq_some hname, hnot, ?_⟩
      rw [inDependencyOrder, firstRepeat_of_nodup hnodup fun _ _ => List.not_mem_nil]
      simp only [hunknown]

/-- Of a project with distinct names that are all declared, a circle is reported. -/
theorem inDependencyOrder_of_circle (hnodup : project.names.Nodup)
    (hdeclared : ∀ service ∈ project.services, ∀ name ∈ service.dependencies,
      name ∈ project.names)
    (h : ∃ name, Relation.TransGen project.Needs name name) :
    project.inDependencyOrder = .error .circular := by
  have hnone : ∀ order, project.inDependencyOrder ≠ .ok order := fun order horder =>
    (orders_of_ok horder).not_disordered (Or.inr (Or.inr h))
  rw [inDependencyOrder, firstRepeat_of_nodup hnodup fun _ _ => List.not_mem_nil] at hnone ⊢
  simp only [firstUnknown_eq_none_iff.mpr hdeclared] at hnone ⊢
  by_cases hlength : project.readyOrder.length = project.services.length
  · rw [if_pos hlength] at hnone
    exact absurd rfl (hnone _)
  · rw [if_neg hlength]

/-- A project has an order just if names are distinct, every dependency is declared and no service
    depends on itself by way of others. The order has all its services, each after everything it
    depends on. Otherwise a name that is there twice is reported, before a dependency that is not
    declared, and that before a circle. On the way, every service that needs the one being placed
    waits and still counts an open dependency, until the queue has run dry. -/
theorem dependency_order (project : Project) :
    ((∃ order, project.inDependencyOrder = .ok order) ↔
      project.names.Nodup ∧
      (∀ service ∈ project.services, ∀ name ∈ service.dependencies, name ∈ project.names) ∧
      ∀ name, ¬Relation.TransGen project.Needs name name) ∧
    (∀ order, project.inDependencyOrder = .ok order → order.Perm project.services ∧
      ∀ before service after, order = before ++ service :: after →
        ∀ name ∈ service.dependencies, name ∈ before.map (·.name)) ∧
    (¬project.names.Nodup → ∃ name, 2 ≤ project.names.count name ∧
      project.inDependencyOrder = .error (.duplicateService name)) ∧
    (project.names.Nodup →
      (¬∀ service ∈ project.services, ∀ name ∈ service.dependencies, name ∈ project.names) →
      ∃ service ∈ project.services, ∃ name ∈ service.dependencies, name ∉ project.names ∧
        project.inDependencyOrder = .error (.unknownDependency service.name name)) ∧
    (project.names.Nodup →
      (∀ service ∈ project.services, ∀ name ∈ service.dependencies, name ∈ project.names) →
      (∃ name, Relation.TransGen project.Needs name name) →
      project.inDependencyOrder = .error .circular) ∧
    (∃ left, project.Queued project.readyOrder.reverse [] left) ∧
    (project.names.Nodup → ∀ placed service queue waiting,
      project.Queued placed (service :: queue) waiting →
      ∀ other ∈ project.services, other.needs service.name = true →
        ∃ w ∈ waiting, w.service = other ∧ 0 < w.openCount) := by
  refine ⟨⟨?_, ?_⟩, ?_, inDependencyOrder_of_repeated, inDependencyOrder_of_unknown,
    inDependencyOrder_of_circle, Queued.start.exists_dry, ?_⟩
  · rintro ⟨order, horder⟩
    have hordered := (orders_of_ok horder).not_disordered
    rw [Disordered, not_or, not_or, not_not] at hordered
    rcases hordered with ⟨hnodup, hdeclared, hcircle⟩
    refine ⟨hnodup, fun service hservice name hname => ?_, not_exists.mp hcircle⟩
    by_contra hnot
    exact hdeclared ⟨service, hservice, name, hname, hnot⟩
  · rintro ⟨hnodup, hdeclared, hcircle⟩
    refine exists_order ?_
    rintro (hrepeat | ⟨service, hservice, name, hname, hunknown⟩ | ⟨name, hneeds⟩)
    · exact hrepeat hnodup
    · exact hunknown (hdeclared service hservice name hname)
    · exact hcircle name hneeds
  · intro order horder
    refine ⟨(orders_of_ok horder).perm, fun before service after hsplit name hname => ?_⟩
    have hordered := (orders_of_ok horder).ordered
    rw [hsplit] at hordered
    exact (hordered.before hname).resolve_left List.not_mem_nil
  · intro hnodup placed service queue waiting hqueued other hother hneeds
    exact hqueued.waits hnodup hother hneeds

end Project

end Fleet
