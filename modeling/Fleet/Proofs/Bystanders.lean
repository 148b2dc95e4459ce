import Fleet.Proofs.Origin
import Fleet.Proofs.Report
import Mathlib.Data.List.Perm.Basic

/-!
# What a pass leaves to others

A successful pass leaves the containers of other services as they were, and in the order
they were in. That the containers are the same is known from what the pass renders. Their
order matters too, because of equal numbers the container that comes first is kept; it is
shown apart from all operations, since no request changes the places of containers that
were there before. A new one comes last, and one that is removed closes the gap.

With this all is said about a single pass that a sequence of them needs, and it is put
together (`Pass.Leads`).

## Main definitions

* `Store.Descends`: A store in which the ids of another one are in their order.
* `Pass.Leads`: What a successful pass leads to.

## Theorems

* `Store.Descends.call`: Every request keeps the order.
* `leads_of_ok`: What a successful pass leads to.
* `filter_of_outside`: The containers of other services are as they were.
-/

namespace Fleet

variable {ρ : Type}

/-- Lists with the same elements are the same if they agree on what tells the elements apart. -/
theorem eq_of_perm_of_map_eq {α β : Type} {f : α → β} {l m : List α} (hperm : l.Perm m)
    (hmap : l.map f = m.map f) (hnodup : (m.map f).Nodup) : l = m := by
  induction l generalizing m with
  | nil => exact hperm.nil_eq
  | cons a l ih =>
      cases m with
      | nil => exact absurd hperm.symm.nil_eq (List.cons_ne_nil a l).symm
      | cons b m =>
          rcases List.cons.inj hmap with ⟨hhead, htail⟩
          have hsame : a = b := List.inj_on_of_nodup_map hnodup
            (hperm.subset List.mem_cons_self) List.mem_cons_self hhead
          subst hsame
          rw [ih (hperm.cons_inv) htail (List.nodup_cons.mp hnodup).2]

/-! ### The order of containers -/

/-- A request keeps the ids that were there before in their order. -/
theorem Request.known_effect (q : Request) (birth : Health) {fresh : String} {known : List String}
    (hfresh : fresh ∉ known) (cs : List Container) :
    (((q.effect birth fresh cs).map (·.id)).filter (· ∈ known)).Sublist
      ((cs.map (·.id)).filter (· ∈ known)) := by
  cases q with
  | create blueprint =>
      have hnone : ([fresh].filter (· ∈ known)) = [] :=
        List.filter_eq_nil_iff.mpr fun id hid => by
          rw [List.mem_singleton.mp hid, decide_eq_true_eq]
          exact hfresh
      simp only [effect, List.map_append, List.filter_append]
      exact (congrArg _ hnone).trans (List.append_nil _) ▸ List.Sublist.refl _
  | list _ => exact List.Sublist.refl _
  | remove id => exact (List.eraseP_sublist.map _).filter _
  | _ =>
      simp only [effect, target?]
      rw [map_changeFirst (changed_id _)]

/-- A store in which the ids that were known are in their order, and are not given out again. -/
structure Store.Descends (known : List String) (s : Store) : Prop extends s.Distinct where
  unknown : ∀ id, s.supply.Comes id → id ∉ known
  order : ((s.containers.map (·.id)).filter (· ∈ known)).Sublist known

namespace Store

variable {known : List String} {s : Store}

theorem Distinct.descends (h : s.Distinct) : s.Descends (s.containers.map (·.id)) where
  toDistinct := h
  unknown id hcomes hmem := by
    rcases List.mem_map.mp hmem with ⟨c, hc, hid⟩
    exact h.unused id hcomes c hc hid
  order := List.filter_sublist

/-- Every request keeps the order. -/
theorem Descends.call (h : s.Descends known) (q : Request) : (s.call q).2.Descends known := by
  refine ⟨h.toDistinct.call q, ?_, ?_⟩
  · cases hcall : (s.call q).1 with
    | error cause =>
        rw [(call_error hcall).2.1]
        exact h.unknown
    | ok answer =>
        intro id hcomes
        rw [(call_ok hcall).2.1] at hcomes
        exact h.unknown id (hcomes.of_le (Supply.le_advance _ q.births))
  · cases hcall : (s.call q).1 with
    | error cause =>
        rw [(call_error hcall).1]
        exact h.order
    | ok answer =>
        rw [(call_ok hcall).2.1]
        exact (Request.known_effect q s.healthOnCreate (h.unknown _ s.supply.comes_next) _).trans
          h.order

end Store

/-- Whatever is asked of a host, the order is kept. -/
theorem Host.descends_keptByCalls (H : Host ρ) (known : List String) :
    KeptByCalls H.engine fun w => H.calm w ∧ (H.store w).Descends known := by
  rintro q w ⟨hcalm, h⟩
  rcases H.call_calm q w hcalm with ⟨hcalm', pending, _, hstore⟩
  have hbefore : ((H.store w).expecting pending).Descends known :=
    ⟨⟨h.nodup, h.unused, h.supply⟩, h.unknown, h.order⟩
  refine ⟨hcalm', ?_⟩
  rw [hstore]
  exact hbefore.call q

/-- Containers that were all there before are in the order they were in. -/
theorem Store.Descends.eq_of_coe_eq {s : Store} {cs l m : List Container}
    (h : s.Descends (cs.map (·.id))) (hnodup : (cs.map (·.id)).Nodup)
    (hl : l.Sublist s.containers) (hm : m.Sublist cs)
    (hcoe : (l : Multiset Container) = m) : l = m := by
  have hperm : l.Perm m := Multiset.coe_eq_coe.mp hcoe
  have hall : (l.map (·.id)).filter (· ∈ cs.map (·.id)) = l.map (·.id) := by
    refine List.filter_eq_self.mpr fun id hid => decide_eq_true ?_
    rcases List.mem_map.mp hid with ⟨c, hc, rfl⟩
    exact List.mem_map_of_mem (hm.subset (hperm.subset hc))
  have hsub : (l.map (·.id)).Sublist (cs.map (·.id)) := by
    rw [← hall]
    exact ((hl.map _).filter _).trans h.order
  have hids : l.map (·.id) = m.map (·.id) :=
    (hnodup.perm_iff_eq_of_sublist hsub (hm.map _)).mp (hperm.map _)
  exact eq_of_perm_of_map_eq hperm hids (hnodup.sublist (hm.map _))

/-! ### What a pass leads to -/

/-- A container belongs to one service of one project at most. -/
theorem Labels.not_accepts_of_differ {project project' name name' : String}
    (hne : project ≠ project' ∨ name ≠ name') {labels : Labels}
    (h : (serviceFilter project name).accepts labels = true) :
    (serviceFilter project' name').accepts labels = false := by
  simp only [LabelFilter.accepts, serviceFilter, List.all_cons, List.all_nil, Bool.and_true,
    Bool.and_eq_true, beq_iff_eq] at h
  simp only [LabelFilter.accepts, serviceFilter, List.all_cons, List.all_nil, Bool.and_true,
    Bool.and_eq_false_iff, beq_eq_false_iff_ne, h.1, h.2]
  exact hne.imp (fun hne heq => hne (Option.some.inj heq)) fun hne heq => hne (Option.some.inj heq)

/-- A container belongs to one service of a project at most. -/
theorem Labels.not_accepts_of_ne {project name other : String} (hne : name ≠ other)
    {labels : Labels} (h : (serviceFilter project name).accepts labels = true) :
    (serviceFilter project other).accepts labels = false :=
  not_accepts_of_differ (Or.inr hne) h

namespace Pass

/-- The containers of other services are as they were. -/
theorem filter_of_outside {pass : Pass} {cs ds : List Container}
    (h : pass.outside ds = pass.outside cs) {name : String} (hne : name ≠ pass.service.name) :
    ds.filter (fun c => (Labels.serviceFilter pass.project.name name).accepts c.labels) =
      cs.filter fun c => (Labels.serviceFilter pass.project.name name).accepts c.labels := by
  have houtside : ∀ l : List Container,
      (pass.outside l).filter (fun c =>
        (Labels.serviceFilter pass.project.name name).accepts c.labels) =
      l.filter fun c => (Labels.serviceFilter pass.project.name name).accepts c.labels := by
    intro l
    rw [outside, List.filter_filter]
    refine List.filter_congr fun c _ => ?_
    cases haccepts : (Labels.serviceFilter pass.project.name name).accepts c.labels with
    | false => rfl
    | true =>
        rw [filter, Labels.not_accepts_of_ne hne haccepts]
        rfl
  rw [← houtside, h, houtside]

/-- What a successful pass leads to from one site to another. -/
structure Leads (H : Host ρ) (pass : Pass) (site site' : Site ρ) : Prop where
  calm : H.calm site'.world
  distinct : (H.store site'.world).Distinct
  supply : (H.store site.world).supply ≤ (H.store site'.world).supply
  clears : pass.Clears (H.store site.world).containers
  renders : pass.Renders (H.store site.world) (H.store site'.world).containers
  outside : pass.outside (H.store site'.world).containers =
    pass.outside (H.store site.world).containers
  converged : Converged pass.project pass.service (H.store site'.world).containers
  flag : site'.recreated = true ↔
    ∃ c ∈ pass.kept (H.store site.world).containers, pass.replaces c = true

theorem supply_le_of_reached {H : Host ρ} {fair : Prop} {s : Store} {pass : Pass} {site : Site ρ}
    (h : Reached H fair s pass site) (hok : pass.result? = some (.ok ())) :
    s.supply ≤ (H.store site.world).supply := by
  rcases pass with ⟨project, service, grace, marks, stage⟩
  cases stage with
  | ended result =>
      rcases h with ⟨hintact, _⟩ | ⟨plan, failure, tripped, _, hledger, _⟩
      · exact hintact.sound.supply
      · exact hledger.sound.supply
  | _ => cases hok

/-- What a successful pass leads to, whatever the order of its moves. -/
theorem leads_of_ok (H : Host ρ) (project : Project) (service : Service) (grace : Option Nat)
    (marks : Marks) {site : Site ρ} (hlowered : site.recreated = false)
    (hcalm : H.calm site.world) (hdistinct : (H.store site.world).Distinct) {moves : List Move}
    (hok : (play H.engine moves (start project service grace marks) site).1.result? =
      some (.ok ())) :
    let pass := start project service grace marks
    Leads H pass site (play H.engine moves pass site).2 := by
  intro pass
  have hreached := reached_of_distinct H.forgetful project service grace marks site moves hcalm
    hdistinct fun s hs => absurd hs List.not_mem_nil
  have hrenders : pass.Renders (H.store site.world)
      (H.store (play H.engine moves pass site).2.world).containers := by
    have hrenders := renders_of_reached hreached hok
    rw [play_fields] at hrenders
    exact ⟨hrenders.outside, hrenders.origin, hrenders.spared, hrenders.replaced⟩
  have hdescends : H.calm (play H.engine moves pass site).2.world ∧
      (H.store (play H.engine moves pass site).2.world).Descends
        ((H.store site.world).containers.map (·.id)) := by
    refine play_kept (H.descends_keptByCalls _) (fun w hw => ?_) moves ⟨hcalm, hdistinct.descends⟩
    rw [(H.cancel_calm w hw.1).2]
    exact ⟨(H.cancel_calm w hw.1).1, hw.2⟩
  rcases found_of_ok H project service grace marks hlowered hcalm hdistinct hok with
    ⟨hclears, hflag⟩
  have hsupply := supply_le_of_reached hreached hok
  have hconverged := converged_of_play hreached hok
  have houtside := hdescends.2.eq_of_coe_eq hdistinct.nodup List.filter_sublist
    List.filter_sublist hrenders.outside
  exact ⟨hdescends.1, hdescends.2.toDistinct, hsupply, hclears, hrenders, houtside,
    hconverged, hflag⟩

section Others

variable {H : Host ρ} {project : Project} {service other : Service} {grace : Option Nat}
  {marks : Marks} {before after : Site ρ}

/-- A pass leaves the containers of other services alone. -/
theorem Leads.ofService_eq (h : Leads H (start project other grace marks) before after)
    (hne : service.name ≠ other.name) :
    ofService project service (H.store after.world).containers =
      ofService project service (H.store before.world).containers :=
  filter_of_outside h.outside hne

/-- So it leaves the gates of those that do not depend on its service. -/
theorem Leads.opens (h : Leads H (start project other grace marks) before after)
    {dependency : String} (hne : dependency ≠ other.name)
    (hopens : Opens project.name dependency (H.store before.world).containers) :
    Opens project.name dependency (H.store after.world).containers := by
  intro c hc haccepts
  have hmem : c ∈ (H.store after.world).containers.filter fun c =>
      (Labels.serviceFilter project.name dependency).accepts c.labels :=
    List.mem_filter.mpr ⟨hc, haccepts⟩
  have hsame := filter_of_outside h.outside hne
  exact hopens c (List.mem_filter.mp (hsame ▸ hmem)).1 haccepts

end Others

end Pass

end Fleet
