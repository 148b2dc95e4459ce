import Fleet.Proofs.Native
import Fleet.Proofs.Rollout

/-!
# How replacements spread

A rollout replaces a container that it keeps if its description has changed, if its
service declares it, or if a container was replaced of a service that this one depends
on. The last reason is passed on by marks, and a mark is of use only if it is there
before the pass that looks for it. So what a rollout has to replace is said first without
marks and passes, as the least set of containers that the three reasons lead to (`Due`).

Every pass keeps in step with it: those services are marked that depend on one of which a
container was due, the containers that were due have been replaced, and the others are
there (`Spreads`). A pass finds all the marks it needs, because the services that its own
depends on have had their passes. It leaves alone what the passes before it have made, and
no new container gets the id of one that was there in the beginning.

## Main definitions

* `remaining`, `surplus`: The containers of a service that are not too many, and those that are.
* `Due`: A container has a reason to be replaced.
* `Renewed`: A container has been replaced.
* `Rollout.Spreads`: What passes have made of what was due.

## Theorems

* `Marks.find?_spread`: A lookup after services have been marked.
* `replaces_iff_due`: A pass replaces what is due.
* `spreads_of_led`: Passes in a row replace what is due, and nothing else.
* `surplus_gone`: A rollout removes what is too many.
* `renewed_iff`: What a rollout replaces.
-/

namespace Fleet

variable {ρ : Type}

/-! ### Reasons to be replaced -/

/-- The containers of a service that are not too many. -/
def remaining (project : Project) (service : Service) (cs : List Container) : List Container :=
  Plan.keptOf (ofService project service cs) service.desiredScale

/-- The containers of a service that are too many. -/
def surplus (project : Project) (service : Service) (cs : List Container) : List Container :=
  Plan.excessOf (ofService project service cs) service.desiredScale

theorem surplus_eq_nil {project : Project} {service : Service} {cs : List Container}
    (h : (ofService project service cs).length ≤ service.desiredScale) :
    surplus project service cs = [] := if_pos h

theorem remaining_append_surplus_perm (project : Project) (service : Service)
    (cs : List Container) :
    (remaining project service cs ++ surplus project service cs).Perm
      (ofService project service cs) := Plan.keptOf_append_excessOf_perm _ _

/-- Of containers that differ, those remain that are not too many. -/
theorem mem_remaining_iff {project : Project} {service : Service} {cs : List Container}
    (hnodup : cs.Nodup) {c : Container} : c ∈ remaining project service cs ↔
      c ∈ ofService project service cs ∧ c ∉ surplus project service cs := by
  have hperm := remaining_append_surplus_perm project service cs
  have hdisjoint := List.disjoint_of_nodup_append (hperm.nodup_iff.mpr (hnodup.filter _))
  constructor
  · exact fun h => ⟨hperm.subset (List.mem_append_left _ h), hdisjoint h⟩
  · exact fun ⟨h, hnot⟩ => (List.mem_append.mp (hperm.mem_iff.mpr h)).resolve_right hnot

theorem mem_of_remaining {project : Project} {service : Service} {cs : List Container}
    {c : Container} (h : c ∈ remaining project service cs) : c ∈ ofService project service cs :=
  (remaining_append_surplus_perm project service cs).subset (List.mem_append_left _ h)

/-- A container that is not too many has a reason to be replaced. -/
inductive Due (project : Project) (cs : List Container) : Service → Container → Prop
  -- It was created from another description.
  | drifted {service : Service} {c : Container} : c ∈ remaining project service cs →
    c.labels.find? Labels.fingerprintKey ≠ some service.fingerprint → Due project cs service c
  -- Its service declares it.
  | declared {service : Service} {c : Container} : c ∈ remaining project service cs →
    service.lifecycle = some .forceRecreate → Due project cs service c
  -- Its service depends on one of which a container has a reason.
  | spread {service dependency : Service} {c d : Container} :
    c ∈ remaining project service cs → dependency ∈ project.services →
    service.needs dependency.name = true → Due project cs dependency d → Due project cs service c

theorem Due.mem {project : Project} {cs : List Container} {service : Service} {c : Container}
    (h : Due project cs service c) : c ∈ remaining project service cs := by
  cases h with
  | drifted hc _ => exact hc
  | declared hc _ => exact hc
  | spread hc _ _ _ => exact hc

theorem due_iff {project : Project} {cs : List Container} {service : Service} {c : Container}
    (hc : c ∈ remaining project service cs) : Due project cs service c ↔
      c.labels.find? Labels.fingerprintKey ≠ some service.fingerprint ∨
      service.lifecycle = some .forceRecreate ∨
      ∃ dependency ∈ project.services, service.needs dependency.name = true ∧
        ∃ d, Due project cs dependency d := by
  constructor
  · intro h
    cases h with
    | drifted _ h => exact Or.inl h
    | declared _ h => exact Or.inr (Or.inl h)
    | spread _ hmem hneeds hdue => exact Or.inr (Or.inr ⟨_, hmem, hneeds, _, hdue⟩)
  · rintro (h | h | ⟨dependency, hmem, hneeds, d, hdue⟩)
    · exact .drifted hc h
    · exact .declared hc h
    · exact .spread hc hmem hneeds hdue

/-- A container has been replaced: it is gone, and a new one has its number and is up to date. -/
structure Renewed (project : Project) (service : Service) (cs ds : List Container)
    (c : Container) : Prop where
  gone : ∀ d ∈ ds, d.id ≠ c.id
  successor : ∃ number, Numbering.numberOf c.summary = .ok number ∧
    ∃ d ∈ ofService project service ds, (∀ e ∈ cs, e.id ≠ d.id) ∧
      Numbering.numberOf d.summary = .ok number ∧
      d.name = containerName project.name service.name number ∧ d.UpToDate service

/-! ### Marks -/

namespace Marks

/-- A lookup after services have been marked. -/
theorem find?_spread (marks : Marks) (project : Project) (name : String) (strategy : Strategy)
    (key : String) : (marks.spread project name strategy).find? key =
      if key ∈ reached project name then some strategy else marks.find? key := by
  rw [spread]
  induction reached project name generalizing marks with
  | nil => rfl
  | cons first rest ih =>
      rw [List.foldl_cons, ih, Dict.find?_insert]
      by_cases hrest : key ∈ rest
      · rw [if_pos hrest, if_pos (List.mem_cons_of_mem _ hrest)]
      · by_cases hfirst : first = key
        · rw [if_neg hrest, if_pos hfirst, if_pos (List.mem_cons.mpr (Or.inl hfirst.symm))]
        · rw [if_neg hrest, if_neg hfirst, if_neg]
          exact fun h => (List.mem_cons.mp h).elim (fun heq => hfirst heq.symm) hrest

theorem forces_iff {marks : Marks} {service : Service} : marks.forces service = true ↔
    marks.find? service.name = some .forceRecreate ∨ service.lifecycle = some .forceRecreate := by
  rw [forces, strategyFor, beq_iff_eq]
  cases marks.find? service.name with
  | none => exact ⟨Or.inr, fun h => h.resolve_left nofun⟩
  | some strategy =>
      cases strategy
      exact ⟨fun _ => Or.inl rfl, fun _ => rfl⟩

/-- Of services with distinct names those are reached that depend on the one named. -/
theorem mem_reached_iff {project : Project} (hnames : project.names.Nodup) {service : Service}
    (hservice : service ∈ project.services) {name : String} :
    service.name ∈ reached project name ↔ service.needs name = true := by
  constructor
  · intro h
    rcases List.mem_map.mp h with ⟨other, hother, heq⟩
    rcases List.mem_filter.mp hother with ⟨hmem, hneeds⟩
    rw [← List.inj_on_of_nodup_map hnames hmem hservice heq]
    exact hneeds
  · exact fun h => List.mem_map_of_mem (List.mem_filter.mpr ⟨hservice, h⟩)

end Marks

/-! ### One pass after the other -/

namespace Rollout

/-- What passes over services have made of what was due in the beginning, and whom they have
    marked. -/
structure Spreads (project : Project) (first : Store) (done : List Service) (marks : Marks)
    (s : Store) : Prop extends s.Distinct where
  left : first.supply ≤ s.supply
  -- Services that have not had their passes have the containers they had.
  awaiting : ∀ service, service.name ∉ done.map (·.name) →
    ofService project service s.containers = ofService project service first.containers
  -- Those are marked that depend on a service of which a container was due.
  marked : ∀ service ∈ project.services, marks.find? service.name = some .forceRecreate ↔
    ∃ dependency ∈ done, service.needs dependency.name = true ∧
      ∃ d, Due project first.containers dependency d
  renewed : ∀ service ∈ done, ∀ c, Due project first.containers service c →
    Renewed project service first.containers s.containers c
  spared : ∀ service ∈ done, ∀ c ∈ remaining project service first.containers,
    ¬Due project first.containers service c →
    { c with state := .running } ∈ ofService project service s.containers
  removed : ∀ service ∈ done, ∀ c ∈ surplus project service first.containers,
    ∀ d ∈ s.containers, d.id ≠ c.id

variable {H : Host ρ} {project : Project} {grace : Option Nat} {first : Store}
  {done : List Service} {marks : Marks} {before after : Site ρ} {last : Service}

theorem spreads_start (h : first.Distinct) : Spreads project first [] .none first where
  toDistinct := h
  left := le_refl _
  awaiting _ _ := rfl
  marked _ _ := ⟨nofun, fun ⟨_, hmem, _⟩ => absurd hmem List.not_mem_nil⟩
  renewed _ hmem := absurd hmem List.not_mem_nil
  spared _ hmem := absurd hmem List.not_mem_nil
  removed _ hmem := absurd hmem List.not_mem_nil

/-- What a service depends on has had its pass. -/
def Follows (project : Project) (done : List Service) (service : Service) : Prop :=
  ∀ dependency ∈ project.services, service.needs dependency.name = true → dependency ∈ done

/-- A pass replaces what is due, if the services have had their passes that its service depends
    on. -/
theorem replaces_iff_due {s : Store} (h : Spreads project first done marks s)
    (hlast : last ∈ project.services) (hdone : done ⊆ project.services)
    (hfollows : Follows project done last) {c : Container}
    (hc : c ∈ remaining project last first.containers) :
    (Pass.start project last grace marks).replaces c = true ↔
      Due project first.containers last c := by
  have hdependencies : (∃ dependency ∈ done, last.needs dependency.name = true ∧
      ∃ d, Due project first.containers dependency d) ↔
      ∃ dependency ∈ project.services, last.needs dependency.name = true ∧
        ∃ d, Due project first.containers dependency d := by
    constructor
    · rintro ⟨dependency, hmem, hrest⟩
      exact ⟨dependency, hdone hmem, hrest⟩
    · rintro ⟨dependency, hmem, hneeds, hdue⟩
      exact ⟨dependency, hfollows dependency hmem hneeds, hneeds, hdue⟩
  have hreplaces : (Pass.start project last grace marks).replaces c = true ↔
      c.labels.find? Labels.fingerprintKey ≠ some last.fingerprint ∨
        marks.forces last = true := by
    rw [Pass.replaces, Bool.or_eq_true, Plan.isDrifted, bne_iff_ne]
    rfl
  rw [hreplaces, Marks.forces_iff, h.marked last hlast, hdependencies, due_iff hc]
  exact or_congr_right or_comm

namespace Spreads

/-- A pass keeps the containers of its service that were not too many in the beginning. -/
theorem kept_eq (h : Spreads project first done marks (H.store before.world))
    (hnew : last.name ∉ done.map (·.name)) :
    (Pass.start project last grace marks).kept (H.store before.world).containers =
      remaining project last first.containers := by
  rw [remaining, ← h.awaiting last hnew]
  rfl

/-- What was too many in the beginning is gone once the pass is over. -/
theorem removed_last (h : Spreads project first done marks (H.store before.world))
    (hfirst : first.Distinct) (hnew : last.name ∉ done.map (·.name))
    (hleads : Pass.Leads H (.start project last grace marks) before after)
    {c : Container} (hc : c ∈ surplus project last first.containers) :
    ∀ d ∈ (H.store after.world).containers, d.id ≠ c.id := by
  have hown := (remaining_append_surplus_perm project last first.containers).subset
    (List.mem_append_right _ hc)
  have hlisted : c ∈ (Pass.start project last grace marks).listed
      (H.store before.world).containers := by
    rw [← h.awaiting last hnew] at hown
    exact hown
  refine hleads.renders.gone h.toDistinct hlisted fun hkept => ?_
  rw [h.kept_eq hnew] at hkept
  exact absurd hc ((mem_remaining_iff (List.Nodup.of_map _ hfirst.nodup)).mp hkept).2

/-- A pass marks the services that depend on its own if a container was due. -/
theorem marked_after (h : Spreads project first done marks (H.store before.world))
    (hnames : project.names.Nodup)
    (hflag : after.recreated = true ↔ ∃ c, Due project first.containers last c)
    {service : Service} (hservice : service ∈ project.services) :
    ((Pass.start project last grace marks).marksAfter after).find? service.name =
        some .forceRecreate ↔
      ∃ dependency ∈ done ++ [last], service.needs dependency.name = true ∧
        ∃ d, Due project first.containers dependency d := by
  have hsplit : (∃ dependency ∈ done ++ [last], service.needs dependency.name = true ∧
      ∃ d, Due project first.containers dependency d) ↔
      marks.find? service.name = some .forceRecreate ∨
        service.needs last.name = true ∧ after.recreated = true := by
    rw [h.marked service hservice, hflag]
    simp only [List.mem_append, List.mem_singleton, or_and_right, exists_or, exists_eq_left]
  rw [hsplit, Pass.marksAfter]
  cases hrecreated : after.recreated with
  | false =>
      rw [if_neg Bool.false_ne_true]
      exact ⟨Or.inl, fun h => h.resolve_right fun hboth => Bool.false_ne_true hboth.2⟩
  | true =>
      rw [if_pos rfl, Marks.find?_spread]
      have hreached : service.name ∈ Marks.reached (Pass.start project last grace marks).project
          (Pass.start project last grace marks).service.name ↔ service.needs last.name = true :=
        Marks.mem_reached_iff hnames hservice
      by_cases hneeds : service.needs last.name = true
      · rw [if_pos (hreached.mpr hneeds)]
        exact ⟨fun _ => Or.inr ⟨hneeds, rfl⟩, fun _ => rfl⟩
      · rw [if_neg fun hmem => hneeds (hreached.mp hmem)]
        exact ⟨Or.inl, fun h => h.resolve_right fun hboth => hneeds hboth.1⟩

/-- A container that has been replaced does not come back. -/
theorem gone_after (h : Spreads project first done marks (H.store before.world))
    (hfirst : first.Distinct)
    (hleads : Pass.Leads H (.start project last grace marks) before after)
    {c : Container} (hc : c ∈ first.containers)
    (hgone : ∀ d ∈ (H.store before.world).containers, d.id ≠ c.id) :
    ∀ d ∈ (H.store after.world).containers, d.id ≠ c.id := by
  intro d hd hid
  rcases hleads.renders.id_cases hd with ⟨e, he, heq⟩ | hcomes
  · exact hgone e he (heq.trans hid)
  · exact hfirst.unused d.id (hcomes.of_le h.left) c hc hid.symm

/-- What is due has been replaced once the pass is over. -/
theorem renewed_last (h : Spreads project first done marks (H.store before.world))
    (hfirst : first.Distinct)
    (hleads : Pass.Leads H (.start project last grace marks) before after)
    {c : Container}
    (hkept : c ∈ (Pass.start project last grace marks).kept (H.store before.world).containers)
    (hreplaces : (Pass.start project last grace marks).replaces c = true) :
    Renewed project last first.containers (H.store after.world).containers c := by
  refine ⟨hleads.renders.gone h.toDistinct (Pass.mem_listed_of_kept hkept) fun _ => hreplaces, ?_⟩
  rcases hleads.renders.replaced c hkept hreplaces with ⟨number, fresh, hnumber, hnew, hmem⟩
  let b := (Pass.start project last grace marks).brief (H.store before.world)
  refine ⟨number, hnumber, .risen b number fresh,
    List.mem_filter.mpr ⟨hmem, Labels.accepts_ofInstance⟩, ?_,
    Labels.numberOf_ofInstance (numberOf_lt_bound hnumber) rfl, rfl, upToDate_risen b number fresh⟩
  exact fun e he heq => hfirst.unused fresh (hnew.2.of_le h.left) e he heq

/-- A pass that succeeds keeps what is known of the passes before it. -/
theorem pass (h : Spreads project first done marks (H.store before.world))
    (hfirst : first.Distinct) (hnames : project.names.Nodup) (hlast : last ∈ project.services)
    (hdone : done ⊆ project.services) (hfollows : Follows project done last)
    (hnew : last.name ∉ done.map (·.name))
    (hleads : Pass.Leads H (.start project last grace marks) before after) :
    Spreads project first (done ++ [last])
      ((Pass.start project last grace marks).marksAfter after) (H.store after.world) := by
  have hkept : (Pass.start project last grace marks).kept (H.store before.world).containers =
      remaining project last first.containers := h.kept_eq hnew
  have hdue : ∀ c ∈ remaining project last first.containers,
      (Pass.start project last grace marks).replaces c = true ↔
        Due project first.containers last c :=
    fun c hc => replaces_iff_due h hlast hdone hfollows hc
  have hflag : after.recreated = true ↔ ∃ c, Due project first.containers last c := by
    rw [hleads.flag, hkept]
    exact ⟨fun ⟨c, hc, hreplaces⟩ => ⟨c, (hdue c hc).mp hreplaces⟩,
      fun ⟨c, h⟩ => ⟨c, h.mem, (hdue c h.mem).mpr h⟩⟩
  have hother : ∀ service ∈ done, service.name ≠ last.name :=
    fun service hmem heq => hnew (heq ▸ List.mem_map_of_mem hmem)
  refine ⟨hleads.distinct, h.left.trans hleads.supply, ?_,
    fun service hservice => h.marked_after hnames hflag hservice, ?_, ?_, ?_⟩
  · intro service hservice
    rw [List.map_append, List.mem_append, not_or] at hservice
    rw [hleads.ofService_eq fun heq => hservice.2 (List.mem_singleton.mpr heq)]
    exact h.awaiting service hservice.1
  · intro service hservice c hreason
    rcases List.mem_append.mp hservice with hmem | hself
    · have hrenewed := h.renewed service hmem c hreason
      have hc := (List.mem_filter.mp (mem_of_remaining hreason.mem)).1
      refine ⟨h.gone_after hfirst hleads hc hrenewed.gone, ?_⟩
      rw [hleads.ofService_eq (hother service hmem)]
      exact hrenewed.successor
    · rw [List.mem_singleton.mp hself] at hreason ⊢
      exact h.renewed_last hfirst hleads (hkept ▸ hreason.mem) ((hdue c hreason.mem).mpr hreason)
  · intro service hservice c hc hnone
    rcases List.mem_append.mp hservice with hmem | hself
    · rw [hleads.ofService_eq (hother service hmem)]
      exact h.spared service hmem c hc hnone
    · rw [List.mem_singleton.mp hself] at hc hnone ⊢
      have hnot : (Pass.start project last grace marks).replaces c = false :=
        Bool.eq_false_iff.mpr fun hreplaces => hnone ((hdue c hc).mp hreplaces)
      exact List.mem_filter.mpr ⟨hleads.renders.spared c (hkept ▸ hc) hnot,
        (List.mem_filter.mp (mem_of_remaining hc)).2⟩
  · intro service hservice c hc
    rcases List.mem_append.mp hservice with hmem | hself
    · have hown := (remaining_append_surplus_perm project service first.containers).subset
        (List.mem_append_right _ hc)
      exact h.gone_after hfirst hleads (List.mem_filter.mp hown).1 (h.removed service hmem c hc)
    · rw [List.mem_singleton.mp hself] at hc
      exact h.removed_last hfirst hnew hleads hc

end Spreads

/-- Passes in a row over services in order replace what is due, and nothing else. -/
theorem spreads_of_led {site now : Site ρ} (hled : Led H project grace site done marks now)
    (hfirst : (H.store site.world).Distinct) (hnames : project.names.Nodup)
    (hdistinct : (done.map (·.name)).Nodup) (hdone : done ⊆ project.services)
    (hordered : Ordered [] done) :
    Spreads project (H.store site.world) done marks (H.store now.world) := by
  refine hled.in_order (P := fun done marks now => done ⊆ project.services →
    Spreads project (H.store site.world) done marks (H.store now.world)) hdistinct hordered
    (fun _ => spreads_start hfirst) ?_ hdone
  intro done marks before after last _ hnew hdependencies hleads ih hdone
  rcases List.append_subset.mp hdone with ⟨hdone, hlast⟩
  refine (ih hdone).pass hfirst hnames (hlast (List.mem_singleton_self _)) hdone ?_ hnew hleads
  intro dependency hmem hneeds
  rcases List.mem_map.mp (hdependencies _ (Service.needs_iff.mp hneeds)) with ⟨other, hother, heq⟩
  rw [← List.inj_on_of_nodup_map hnames (hdone hother) hmem heq]
  exact hother

/-! ### What a rollout replaces -/

section Whole

variable (H : Host ρ) (project : Project) (grace : Option Nat) (w : ρ) (channel : Channel)

/-- What a rollout that succeeds has made of what was due. -/
theorem spreads_of_ok (hcalm : H.calm w) (hdistinct : (H.store w).Distinct) (moves : List Move)
    (hok : (play H.engine moves (start project grace) ⟨w, channel, false⟩).1.result? =
      some (.ok ())) :
    ∃ order marks, order.Perm project.services ∧ Spreads project (H.store w) order marks
      (H.store (play H.engine moves (start project grace) ⟨w, channel, false⟩).2.world) := by
  rcases led_of_ok hcalm hdistinct rfl hok with ⟨order, marks, now, horder, hled, _, hstore⟩
  have horders := Project.orders_of_ok horder
  have hnames := horders.nodup_names
  refine ⟨order, marks, horders.perm, ?_⟩
  rw [hstore]
  exact spreads_of_led hled hdistinct hnames horders.distinct horders.perm.subset horders.ordered

/-- A rollout that succeeds removes the containers that are too many. -/
theorem surplus_gone (hcalm : H.calm w) (hdistinct : (H.store w).Distinct) (moves : List Move)
    (hok : (play H.engine moves (start project grace) ⟨w, channel, false⟩).1.result? =
      some (.ok ())) {service : Service} (hservice : service ∈ project.services)
    {c : Container} (hc : c ∈ surplus project service (H.store w).containers) :
    ∀ d ∈ (H.store (play H.engine moves (start project grace) ⟨w, channel, false⟩).2.world
      ).containers, d.id ≠ c.id := by
  rcases spreads_of_ok H project grace w channel hcalm hdistinct moves hok with
    ⟨order, marks, hperm, hspreads⟩
  exact hspreads.removed service (hperm.mem_iff.mpr hservice) c hc

/-- Of the others it replaces what is due, and the rest is still there, running. -/
theorem renewed_iff_due (hcalm : H.calm w) (hdistinct : (H.store w).Distinct) (moves : List Move)
    (hok : (play H.engine moves (start project grace) ⟨w, channel, false⟩).1.result? =
      some (.ok ())) {service : Service} (hservice : service ∈ project.services)
    {c : Container} (hc : c ∈ remaining project service (H.store w).containers) :
    let cs := (H.store w).containers
    let ds := (H.store (play H.engine moves (start project grace) ⟨w, channel, false⟩).2.world
      ).containers
    (Renewed project service cs ds c ↔ Due project cs service c) ∧
      (¬Renewed project service cs ds c → { c with state := .running } ∈ ds) := by
  intro cs ds
  rcases spreads_of_ok H project grace w channel hcalm hdistinct moves hok with
    ⟨order, marks, hperm, hspreads⟩
  have hdone : service ∈ order := hperm.mem_iff.mpr hservice
  by_cases hdue : Due project cs service c
  · have hrenewed := hspreads.renewed service hdone c hdue
    exact ⟨⟨fun _ => hdue, fun _ => hrenewed⟩, fun hnot => absurd hrenewed hnot⟩
  · have hmem := (List.mem_filter.mp (hspreads.spared service hdone c hc hdue)).1
    exact ⟨⟨fun hrenewed => (hrenewed.gone _ hmem rfl).elim, fun h => absurd h hdue⟩,
      fun _ => hmem⟩

/-- A container of a service that is not too many is replaced by a rollout that succeeds if and
    only if its fingerprint is not the service's, or the service declares it, or a container was
    replaced of a service that it depends on. Otherwise it is still there, running. -/
theorem renewed_iff (hcalm : H.calm w) (hdistinct : (H.store w).Distinct) (moves : List Move)
    (hok : (play H.engine moves (start project grace) ⟨w, channel, false⟩).1.result? =
      some (.ok ())) {service : Service} (hservice : service ∈ project.services)
    {c : Container} (hc : c ∈ ofService project service (H.store w).containers)
    (hfew : c ∉ surplus project service (H.store w).containers) :
    let cs := (H.store w).containers
    let ds := (H.store (play H.engine moves (start project grace) ⟨w, channel, false⟩).2.world
      ).containers
    (Renewed project service cs ds c ↔
      c.labels.find? Labels.fingerprintKey ≠ some service.fingerprint ∨
      service.lifecycle = some .forceRecreate ∨
      ∃ dependency ∈ project.services, service.needs dependency.name = true ∧
        ∃ d ∈ ofService project dependency cs, d ∉ surplus project dependency cs ∧
          Renewed project dependency cs ds d) ∧
      (¬Renewed project service cs ds c → { c with state := .running } ∈ ds) := by
  intro cs ds
  have hmem : ∀ {service c}, c ∈ remaining project service cs ↔
      c ∈ ofService project service cs ∧ c ∉ surplus project service cs :=
    mem_remaining_iff (List.Nodup.of_map _ hdistinct.nodup)
  have hremains := hmem.mpr ⟨hc, hfew⟩
  rcases renewed_iff_due H project grace w channel hcalm hdistinct moves hok hservice hremains with
    ⟨hiff, hspared⟩
  refine ⟨?_, hspared⟩
  rw [hiff, due_iff hremains]
  refine or_congr_right (or_congr_right (exists_congr fun dependency =>
    and_congr_right fun hdependency => and_congr_right fun _ => exists_congr fun d => ?_))
  constructor
  · intro hdue
    rcases hmem.mp hdue.mem with ⟨hd, hfewer⟩
    exact ⟨hd, hfewer, (renewed_iff_due H project grace w channel hcalm hdistinct moves hok
      hdependency hdue.mem).1.mpr hdue⟩
  · rintro ⟨hd, hfewer, hrenewed⟩
    exact (renewed_iff_due H project grace w channel hcalm hdistinct moves hok hdependency
      (hmem.mpr ⟨hd, hfewer⟩)).1.mp hrenewed

end Whole

/-- A container that is up to date is replaced, since that of the service is which its own depends
    on. -/
theorem renewed_sample :
    Renewed Sample.tiers Sample.front Sample.tiersSite.world.store.containers
      (Drill.host.store Sample.rolled.2.world).containers Sample.fronting := by
  have hcalm : Drill.host.calm Sample.tiersSite.world := fun _ hi => absurd hi List.not_mem_nil
  let cs := Sample.tiersSite.world.store.containers
  have hback : Sample.service ∈ Sample.tiers.services := List.mem_pair.mpr (Or.inr rfl)
  have hfront : Sample.front ∈ Sample.tiers.services := List.mem_pair.mpr (Or.inl rfl)
  have hold : Sample.container ∈ ofService Sample.tiers Sample.service cs :=
    List.mem_filter.mpr ⟨List.mem_pair.mpr (Or.inr rfl), by decide⟩
  have hpresent : Sample.fronting ∈ ofService Sample.tiers Sample.front cs :=
    List.mem_filter.mpr ⟨List.mem_pair.mpr (Or.inl rfl), Labels.accepts_ofInstance⟩
  have hbackFew : surplus Sample.tiers Sample.service cs = [] :=
    surplus_eq_nil (by decide)
  have hfrontFew : surplus Sample.tiers Sample.front cs = [] :=
    surplus_eq_nil (by decide)
  have hchanged : Sample.container.labels.find? Labels.fingerprintKey = none := by decide
  have hcause := (renewed_iff Drill.host Sample.tiers none Sample.tiersSite.world .fresh hcalm
    Sample.distinct_tiers _ Sample.rolled_ok hback hold (hbackFew ▸ List.not_mem_nil)).1.mpr
    (Or.inl (by rw [hchanged]; exact nofun))
  exact (renewed_iff Drill.host Sample.tiers none Sample.tiersSite.world .fresh hcalm
    Sample.distinct_tiers _ Sample.rolled_ok hfront hpresent (hfrontFew ▸ List.not_mem_nil)).1.mpr
    (Or.inr (Or.inr ⟨Sample.service, hback, by decide, Sample.container, hold,
      hbackFew ▸ List.not_mem_nil, hcause⟩))

end Rollout

end Fleet
