import Fleet.Proofs.Convergence
import Fleet.Proofs.Native

/-!
# What is still there at every moment

However a pass goes, no container is lost on the way. At every moment of it, and
whatever has failed by then, a container that was there at the beginning is still
there, perhaps stopped or renamed, or is too many, or has been replaced by one that
runs under the name of its number.

The moments are all of them and not only those between turns: the statement is about
a host that records the store after each request. What carries it is that in every
posture of a replacement the old container is in hand until the new one runs.

## Main definitions

* `Pass.surplus`: The containers that a pass selects as too many.
* `Remains`: A container is still there.
* `Replaced`: A container has been replaced.

## Theorems

* `Posture.spares`: Nothing in hand is lost.
* `retains_of_accounted`: Nothing is lost of a store that is accounted for.
* `remains_or_replaced`: Nothing is lost at any moment.
-/

namespace Fleet

variable {ρ : Type}

/-- A container is still there, perhaps in another state or under another name. -/
def Remains (c : Container) (cs : List Container) : Prop :=
  ∃ d ∈ cs, d.id = c.id ∧ d.labels = c.labels

/-- A container with a number has been replaced: there is one with its number that runs under the
    name of the number and was created from the present description. -/
def Replaced (project : Project) (service : Service) (c : Container) (cs : List Container) : Prop :=
  ∃ number, Numbering.numberOf c.summary = .ok number ∧
    ∃ d ∈ cs, Numbering.numberOf d.summary = .ok number ∧ d.UpToDate service ∧
      d.name = containerName project.name service.name number

/-- The containers that a pass selects as too many, none if it has no plan. -/
def Pass.surplus (pass : Pass) (cs : List Container) : List Container :=
  match pass.planFor cs with
  | .ok _ => pass.excess cs
  | .error _ => []

/-- While a replacement comes up the old container is there. -/
theorem Duty.Rises.remains {b : Brief} {duty : Duty} {number : Nat} {old : List Container}
    {post : List Step} (h : duty.Rises b number old post) {c : Container} (hc : c ∈ duty.found)
    (new : List Container) : Remains c (old ++ new) := by
  cases h with
  | create => exact absurd hc List.not_mem_nil
  | recreate c' =>
      rw [List.mem_singleton.mp hc]
      exact ⟨c'.parked b number, List.mem_append_left _ (List.mem_singleton_self _),
        Container.parked_id b number c', Container.parked_labels b number c'⟩

/-- Nothing in hand is lost: the container of a duty is still in hand, or was to be removed, or its
    replacement runs. -/
theorem Posture.spares {b : Brief} {duty : Duty} {hand : Hand} {rest : List Step}
    (h : Posture b duty hand rest) {c : Container} (hc : c ∈ duty.found) :
    duty = .remove c ∨ Remains c hand.containers ∨
      ∃ number fresh, duty = .recreate c ∧ Numbering.numberOf c.summary = .ok number ∧
        Container.risen b number fresh ∈ hand.containers := by
  cases h with
  | opening => exact Or.inr (Or.inl ⟨c, hc, rfl, rfl⟩)
  | barred => exact Or.inr (Or.inl ⟨c, hc, rfl, rfl⟩)
  | halted c' =>
      rw [List.mem_singleton.mp hc]
      exact Or.inl rfl
  | removed c' =>
      rw [List.mem_singleton.mp hc]
      exact Or.inl rfl
  | started c' =>
      rw [List.mem_singleton.mp hc]
      exact Or.inr (Or.inl ⟨_, List.mem_singleton_self _, rfl, rfl⟩)
  | stopped c' =>
      rw [List.mem_singleton.mp hc]
      exact Or.inr (Or.inl ⟨_, List.mem_singleton_self _, Container.stopped_id c',
        Container.stopped_labels c'⟩)
  | poised hrises =>
      have hremains := hrises.remains hc []
      rw [List.append_nil] at hremains
      exact Or.inr (Or.inl hremains)
  | raised _ _ _ hrises => exact Or.inr (Or.inl (hrises.remains hc _))
  | risen _ hrises => exact Or.inr (Or.inl (hrises.remains hc _))
  | replaced c' number fresh hnumber =>
      rw [List.mem_singleton.mp hc]
      exact Or.inr (Or.inr ⟨number, fresh, rfl, hnumber, List.mem_singleton_self _⟩)

theorem Remains.mono {c : Container} {cs ds : List Container} (h : Remains c cs)
    (hsub : ∀ d ∈ cs, d ∈ ds) : Remains c ds := by
  rcases h with ⟨d, hd, hid, hlabels⟩
  exact ⟨d, hsub d hd, hid, hlabels⟩

theorem replaced_of_risen {project : Project} {service : Service} {b : Brief}
    (hproject : b.project = project.name) (hservice : b.service = service) {c : Container}
    {number : Nat} {fresh : String} (hnumber : Numbering.numberOf c.summary = .ok number)
    {cs : List Container} (hrisen : Container.risen b number fresh ∈ cs) :
    Replaced project service c cs := by
  refine ⟨number, hnumber, .risen b number fresh, hrisen, ?_, ?_, ?_⟩
  · exact Labels.numberOf_ofInstance (numberOf_lt_bound hnumber) rfl
  · rw [← hservice]
    exact upToDate_risen b number fresh
  · rw [← hproject, ← hservice]
    rfl

namespace Pass

variable {pass : Pass} {s : Store} {plan : Plan}

/-- What becomes of the containers of a store: each of them remains, or is too many, or is kept and
    has been replaced. -/
def Retains (pass : Pass) (cs ds : List Container) : Prop :=
  ∀ c ∈ cs, c ∈ pass.surplus cs ∨ Remains c ds ∨
    c ∈ pass.kept cs ∧ Replaced pass.project pass.service c ds

theorem retains_refl (pass : Pass) (cs : List Container) : pass.Retains cs cs :=
  fun c hc => Or.inr (Or.inl ⟨c, hc, rfl, rfl⟩)

/-- Nothing is lost of a store that is accounted for. -/
theorem retains_of_accounted (hplan : pass.planFor s.containers = .ok plan) {ds : List Container}
    (h : Accounted (pass.brief s) (pass.untouched s.containers)
      (pass.duties plan.missing s.containers) ds) : pass.Retains s.containers ds := by
  intro c hc
  rcases h with ⟨accounts, hduties, hvalid, hstock⟩
  rw [← Multiset.mem_coe, stock_eq pass plan.missing s.containers, Multiset.mem_add,
    Multiset.mem_bind] at hc
  rcases hc with hc | ⟨duty, hduty, hc⟩
  · refine Or.inr (Or.inl ⟨c, ?_, rfl, rfl⟩)
    rw [← Multiset.mem_coe, hstock, Multiset.mem_add]
    exact Or.inl hc
  · rw [← hduties] at hduty
    rcases Multiset.mem_map.mp hduty with ⟨a, ha, rfl⟩
    have hsub : ∀ d ∈ a.hand.containers, d ∈ ds := by
      intro d hd
      rw [← Multiset.mem_coe, hstock, Multiset.mem_add, held, Multiset.mem_bind]
      exact Or.inr ⟨a, ha, hd⟩
    rw [hduties] at hduty
    -- Only removals take their container away, and only replacements put another in its place.
    rcases (hvalid a ha).spares hc with heq | hremains | ⟨number, fresh, heq, hnumber, hrisen⟩
    · rw [heq] at hduty
      rcases mem_duties hduty with ⟨_, _, heq⟩ | ⟨c', hc', heq⟩ | ⟨_, _, _, _, heq⟩ |
        ⟨_, _, _, heq⟩
      · cases heq
      · cases heq
        rw [surplus, hplan]
        exact Or.inl hc'
      · cases heq
      · cases heq
    · exact Or.inr (Or.inl (hremains.mono hsub))
    · rw [heq] at hduty
      refine Or.inr (Or.inr ⟨?_, replaced_of_risen rfl rfl hnumber (hsub _ hrisen)⟩)
      rcases mem_duties hduty with ⟨_, _, heq⟩ | ⟨_, _, heq⟩ | ⟨_, _, _, _, heq⟩ |
        ⟨c', hc', _, heq⟩
      · cases heq
      · cases heq
      · cases heq
      · cases heq
        exact hc'

/-- Nothing has been lost of a store at any moment of a pass that began on it. -/
theorem retains_of_reached {H : Host ρ} {fair : Prop} {site : Site ρ}
    (h : Reached H fair s pass site) :
    ∀ t ∈ H.trail site.world ++ [H.store site.world], pass.Retains s.containers t.containers := by
  intro t ht
  rcases accounted_of_reached h t ht with hsame | ⟨plan, hplan, haccounted⟩
  · rw [hsame]
    exact retains_refl pass s.containers
  · exact retains_of_accounted hplan haccounted

/-- At every moment of a pass and after it, whatever fails, whenever the work is ended and whatever
    the order of its moves, each container that was there at the beginning is too many, or is still
    there, or is kept and has been replaced by one that runs. -/
theorem remains_or_replaced (H : Host ρ) (project : Project) (service : Service)
    (grace : Option Nat) (marks : Marks) (w : ρ) (channel : Channel) (recreated : Bool)
    (hcalm : H.calm w) (hdistinct : (H.store w).Distinct) (moves : List Move) :
    let pass := start project service grace marks
    let after := (play H.recorded.engine moves pass ⟨(w, []), channel, recreated⟩).2
    ∀ t ∈ after.world.2 ++ [H.store after.world.1],
      pass.Retains (H.store w).containers t.containers := by
  intro pass after
  have hcalm' : H.recorded.calm (w, []) := hcalm
  have hreached := reached_of_distinct H.recorded project service grace marks
    ⟨(w, []), channel, recreated⟩ moves hcalm' hdistinct fun s hs => absurd hs List.not_mem_nil
  have hretains := retains_of_reached hreached
  rw [play_fields] at hretains
  exact hretains

/-- A replacement whose new container does not start, and which is then broken off. -/
theorem remains_or_replaced_sample :
    (Drill.host.calm Sample.faulty ∧ Sample.faulty.store.Distinct) ∧
    ∀ t ∈ (play Drill.host.recorded.engine [.poll 0, .poll 0, .cancel] Sample.pass
        ⟨(Sample.faulty, []), .fresh, false⟩).2.world.2 ++
      [(play Drill.host.recorded.engine [.poll 0, .poll 0, .cancel] Sample.pass
        ⟨(Sample.faulty, []), .fresh, false⟩).2.world.1.store],
      Sample.pass.Retains Sample.faulty.store.containers t.containers :=
  have hcalm : Drill.host.calm Sample.faulty := fun _ hi => absurd hi List.not_mem_nil
  have hdistinct : Sample.faulty.store.Distinct := (Sample.tidy rfl rfl).toDistinct
  ⟨⟨hcalm, hdistinct⟩, remains_or_replaced Drill.host Sample.project Sample.service none Marks.none
    Sample.faulty .fresh false hcalm hdistinct [.poll 0, .poll 0, .cancel]⟩

end Pass

end Fleet
