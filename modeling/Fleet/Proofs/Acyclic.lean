import Fleet.Proofs.Order
import Mathlib.Data.Fintype.EquivFin
import Mathlib.Data.Fintype.Sets
import Mathlib.Order.WellFounded

/-!
# Projects that have an order

A project that has an order is not disordered (`Project.Orders.not_disordered`). The other
way round, the queue must not run dry too early. If it does, every service that was not
placed has a dependency that was not placed either (`placeReady_stuck`). Names of services
can then be followed from one to the next for ever, which among finitely many of them is
not possible without a circle.

## Theorems

* `placeReady_stuck`: What is not placed waits for something that is not placed.
* `Project.exists_circle_of_unplaced`: Names can be followed for ever if a service is not placed.
* `Project.exists_order`: A project that is not disordered has an order.
-/

namespace Fleet

/-- What is not placed waits for something that is not placed, if there were turns enough. -/
theorem placeReady_stuck (turns : Nat) {queue : List Service} {waiting : List Waiting}
    {placed : List String}
    (hnodup : (placed ++ (queue ++ waiting.map (·.service)).map (·.name)).Nodup)
    (hwaiting : ∀ w ∈ waiting, w.Counts placed) (hturns : queue.length + waiting.length ≤ turns) :
    (∀ service ∈ queue, service ∈ placeReady turns queue waiting) ∧
      ∀ service ∈ waiting.map (·.service), service ∈ placeReady turns queue waiting ∨
        ∃ name ∈ service.dependencies, name ∉ placed ∧
          name ∉ (placeReady turns queue waiting).map (·.name) := by
  induction turns generalizing queue waiting placed with
  | zero =>
      rw [Nat.le_zero, Nat.add_eq_zero_iff, List.length_eq_zero_iff,
        List.length_eq_zero_iff] at hturns
      rw [hturns.1, hturns.2]
      exact ⟨fun _ hs => absurd hs List.not_mem_nil, fun _ hs => absurd hs List.not_mem_nil⟩
  | succ turns ih =>
      cases queue with
      | nil =>
          refine ⟨fun _ hs => absurd hs List.not_mem_nil, fun service hservice => Or.inr ?_⟩
          rcases List.mem_map.mp hservice with ⟨w, hw, rfl⟩
          rcases hwaiting w hw with ⟨hcount, hpos⟩
          rw [hcount] at hpos
          rcases List.exists_mem_of_length_pos hpos with ⟨name, hname⟩
          rcases List.mem_filter.mp hname with ⟨hname, hopen⟩
          exact ⟨name, hname, of_decide_eq_true hopen, List.not_mem_nil⟩
      | cons service queue =>
          rw [List.cons_append, List.map_cons] at hnodup
          have hnodup' := (List.perm_middle.nodup_iff).mp hnodup
          have hname : service.name ∉ placed := fun hmem =>
            (List.nodup_cons.mp hnodup').1 (List.mem_append_left _ hmem)
          have hrelease := release_perm service.name waiting
          have hperm : (queue ++ (release service.name waiting).1 ++
              (release service.name waiting).2.map (·.service)).Perm
              (queue ++ waiting.map (·.service)) := by
            rw [List.append_assoc]
            exact hrelease.append_left queue
          have hnames := ((hperm.map (·.name)).append_left placed).cons service.name
          have hlength := hrelease.length_eq
          rw [List.length_append, List.length_map, List.length_map] at hlength
          rw [List.length_cons] at hturns
          rcases ih (hnames.nodup_iff.mpr hnodup') (release_counts hname hwaiting).2
            (by rw [List.length_append]; omega) with ⟨hqueue, hrest⟩
          rw [placeReady]
          refine ⟨fun s hs => ?_, fun s hs => ?_⟩
          · rcases List.mem_cons.mp hs with rfl | hs
            · exact List.mem_cons_self
            · exact List.mem_cons_of_mem _ (hqueue s (List.mem_append_left _ hs))
          · rcases List.mem_append.mp (hrelease.mem_iff.mpr hs) with hready | hwaits
            · exact Or.inl (List.mem_cons_of_mem _ (hqueue s (List.mem_append_right _ hready)))
            · rcases hrest s hwaits with hplaced | ⟨name, hdependency, hopen, hnot⟩
              · exact Or.inl (List.mem_cons_of_mem _ hplaced)
              · rw [List.mem_cons, not_or] at hopen
                refine Or.inr ⟨name, hdependency, hopen.2, ?_⟩
                rw [List.map_cons, List.mem_cons, not_or]
                exact ⟨hopen.1, hnot⟩

theorem firstRepeat_of_nodup {seen names : List String} (hnodup : names.Nodup)
    (hnew : ∀ name ∈ names, name ∉ seen) : firstRepeat seen names = none := by
  induction names generalizing seen with
  | nil => rfl
  | cons name rest ih =>
      rcases List.nodup_cons.mp hnodup with ⟨hname, hrest⟩
      rw [firstRepeat, if_neg (hnew name List.mem_cons_self)]
      refine ih hrest fun other hother hmem => ?_
      rcases List.mem_cons.mp hmem with rfl | hmem
      · exact hname hother
      · exact hnew other (List.mem_cons_of_mem _ hother) hmem

namespace Project

variable {project : Project}

theorem firstUnknown_eq_none_iff : project.firstUnknown = none ↔
    ∀ service ∈ project.services, ∀ name ∈ service.dependencies, name ∈ project.names := by
  rw [firstUnknown, List.findSome?_eq_none_iff]
  refine forall₂_congr fun service _ => ?_
  rw [Option.map_eq_none_iff, List.find?_eq_none]
  refine forall₂_congr fun name _ => ?_
  rw [decide_eq_true_eq, not_not]

/-- A service that is not placed depends on one that is not placed either. -/
theorem readyOrder_stuck (hnodup : project.names.Nodup) {service : Service}
    (hservice : service ∈ project.services) : service ∈ project.readyOrder ∨
      ∃ name ∈ service.dependencies, name ∉ project.readyOrder.map (·.name) := by
  have hperm := first_perm project
  have hlength := hperm.length_eq
  rw [List.length_append, List.length_map] at hlength
  rcases placeReady_stuck project.services.length
    ((hperm.map Service.name).nodup_iff.mpr hnodup) (fun w => counts_of_waitingFirst)
    (Nat.le_of_eq hlength) with ⟨hready, hwaiting⟩
  rcases List.mem_append.mp (hperm.mem_iff.mpr hservice) with hmem | hmem
  · exact Or.inl (hready service hmem)
  · refine (hwaiting service hmem).imp_right ?_
    rintro ⟨name, hname, _, hnot⟩
    exact ⟨name, hname, hnot⟩

/-- A set of names from each of which another one of them is needed has a circle. -/
theorem exists_circle {names : Finset String} (hne : names.Nonempty)
    (hneeds : ∀ name ∈ names, ∃ other ∈ names, project.Needs name other) :
    ∃ name, Relation.TransGen project.Needs name name := by
  by_contra hnone
  rw [not_exists] at hnone
  let below : names → names → Prop := fun other name =>
    Relation.TransGen project.Needs name.1 other.1
  have htrans : IsTrans names below := ⟨fun _ _ _ h h' => h'.trans h⟩
  have hirrefl : Std.Irrefl below := ⟨fun name => hnone name.1⟩
  have hwf : WellFounded below := Finite.wellFounded_of_trans_of_irrefl below
  rcases hne with ⟨first, hfirst⟩
  rcases hwf.has_min Set.univ ⟨⟨first, hfirst⟩, trivial⟩ with ⟨name, _, hmin⟩
  rcases hneeds name.1 name.2 with ⟨other, hother, hneed⟩
  exact hmin ⟨other, hother⟩ trivial (.single hneed)

/-- Names can be followed for ever if a service is not placed. -/
theorem exists_circle_of_unplaced (hnodup : project.names.Nodup)
    (hdeclared : ∀ service ∈ project.services, ∀ name ∈ service.dependencies,
      name ∈ project.names) {service : Service} (hservice : service ∈ project.services)
    (hnot : service ∉ project.readyOrder) :
    ∃ name, Relation.TransGen project.Needs name name := by
  let unplaced := project.names.toFinset.filter (· ∉ project.readyOrder.map (·.name))
  have hmem : ∀ name, name ∈ unplaced ↔
      name ∈ project.names ∧ name ∉ project.readyOrder.map (·.name) := by
    intro name
    rw [Finset.mem_filter, List.mem_toFinset]
  refine exists_circle (show unplaced.Nonempty from ⟨service.name, ?_⟩) ?_
  · refine (hmem _).mpr ⟨List.mem_map_of_mem hservice, fun hplaced => hnot ?_⟩
    rcases List.mem_map.mp hplaced with ⟨other, hother, hname⟩
    have hsame := List.inj_on_of_nodup_map hnodup
      ((readyOrder_ordered hnodup).2.subset hother) hservice hname
    rw [← hsame]
    exact hother
  · intro name hname
    rcases (hmem name).mp hname with ⟨hname, hunplaced⟩
    rcases List.mem_map.mp hname with ⟨other, hother, rfl⟩
    rcases readyOrder_stuck hnodup hother with hplaced | ⟨needed, hneeded, hnot⟩
    · exact absurd (List.mem_map_of_mem hplaced) hunplaced
    · exact ⟨needed, (hmem needed).mpr ⟨hdeclared other hother needed hneeded, hnot⟩, other,
        hother, rfl, hneeded⟩

/-- A project that is not disordered has an order. -/
theorem exists_order (h : ¬project.Disordered) :
    ∃ order, project.inDependencyOrder = .ok order := by
  rw [Disordered, not_or, not_or, not_not] at h
  rcases h with ⟨hnodup, hdeclared, hcircle⟩
  have hknown : ∀ service ∈ project.services, ∀ name ∈ service.dependencies,
      name ∈ project.names := fun service hservice name hname =>
    Decidable.by_contra fun hnot => hdeclared ⟨service, hservice, name, hname, hnot⟩
  have hplaced : project.services ⊆ project.readyOrder := fun service hservice =>
    by_contra fun hnot => hcircle (exists_circle_of_unplaced hnodup hknown hservice hnot)
  have hlength : project.readyOrder.length = project.services.length :=
    Nat.le_antisymm (readyOrder_ordered hnodup).2.length_le
      (List.subperm_of_subset hnodup.of_map hplaced).length_le
  have hunknown : project.firstUnknown = none := firstUnknown_eq_none_iff.mpr hknown
  refine ⟨project.readyOrder, ?_⟩
  rw [inDependencyOrder, firstRepeat_of_nodup hnodup fun _ _ => List.not_mem_nil]
  simp only [hunknown, hlength, if_true]

end Project

end Fleet
