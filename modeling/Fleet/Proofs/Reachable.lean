import Fleet.Proofs.Clash
import Fleet.Proofs.Retention
import Fleet.Proofs.Throughout

/-!
# Stores that passes lead to

What a store looks like on which nothing but passes over one service has ever been at
work, each with a description of its own, under any order of moves, and broken off or
failing at any moment. Ids and names are distinct, and every container is the service's,
has a number, and has the name of the number or is out of the way.

It does not follow that numbers are distinct. This is the one thing that a replacement
which is broken off takes away.

## Main definitions

* `Homely`: A store of such containers.
* `Reachable`: A store that passes over one service lead to.

## Theorems

* `Posture.native`: Every container in hand is native.
* `homely_play`: A pass keeps a store homely.
* `homely_of_reachable`: Passes lead to homely stores.
-/

namespace Fleet

variable {ρ : Type}

/-- A store in which ids and names are distinct and every container is one service's. -/
structure Homely (project service : String) (s : Store) : Prop where
  tidy : s.Tidy
  native : ∀ c ∈ s.containers, c.Native project service

theorem Homely.listed_eq {pass : Pass} {s : Store}
    (h : Homely pass.project.name pass.service.name s) :
    pass.listed s.containers = s.containers :=
  List.filter_eq_self.mpr fun c hc => (h.native c hc).own

theorem Homely.outside_eq {pass : Pass} {s : Store}
    (h : Homely pass.project.name pass.service.name s) : pass.outside s.containers = [] := by
  refine List.filter_eq_nil_iff.mpr fun c hc => ?_
  rw [show pass.filter.accepts c.labels = true from (h.native c hc).own]
  exact Bool.false_ne_true

theorem Homely.untouched_eq {pass : Pass} {s : Store}
    (h : Homely pass.project.name pass.service.name s) :
    pass.untouched s.containers = pass.idle s.containers := by
  rw [Pass.untouched, h.outside_eq, List.nil_append]

/-- A store that passes over one service lead to from an empty one: with any ids that are not given
    out twice, with any descriptions, with failures laid in store at any time, under every order of
    moves, and at every moment. -/
inductive Reachable (project : Project) (name : String) : Store → Prop
  -- Nothing has been done.
  | blank {nth : Nat → String} : Function.Injective nth → Reachable project name (.blank nth)
  -- Failures are laid in store.
  | expecting {s : Store} (pending : Verb → Option String) : Reachable project name s →
    Reachable project name (s.expecting pending)
  -- A pass has begun and made some moves.
  | pass {ρ : Type} (H : Host ρ) (service : Service) (grace : Option Nat) (marks : Marks)
    (site : Site ρ) (moves : List Move) : service.name = name → H.calm site.world →
    Reachable project name (H.store site.world) → Reachable project name
      (H.store (Pass.play H.engine moves (.start project service grace marks) site).2.world)

theorem Reachable.empty {project : Project} {name : String} : Reachable project name .empty :=
  .blank freshId_injective

/-! ### Numbers and names of containers in hand -/

section Postures

variable {b : Brief} {duty : Duty} {hand : Hand} {rest post : List Step} {old : List Container}
  {number : Nat}

/-- While a container comes up, its number is that of the duty, and the old container is native. -/
theorem Duty.Rises.native (h : duty.Rises b number old post)
    (hfound : ∀ c ∈ duty.found, c.Native b.project b.service.name)
    (htaken : ∀ n ∈ duty.taken, n < Numbering.bound) :
    number < Numbering.bound ∧ number = duty.number ∧
      ∀ c ∈ old, c.Native b.project b.service.name ∧ c.number = duty.number := by
  cases h with
  | create =>
      exact ⟨htaken number (List.mem_singleton_self _), rfl, fun c hc => absurd hc List.not_mem_nil⟩
  | recreate c _ hnumber =>
      have hsame := Container.number_of_ok hnumber
      refine ⟨numberOf_lt_bound hnumber, hsame.symm, ?_⟩
      intro d hd
      rw [List.mem_singleton.mp hd]
      refine (hfound c (List.mem_singleton_self c)).of_same (Container.parked_id b number c)
        (Container.parked_labels b number c) (Or.inr ?_)
      rw [Container.parked, hsame]

/-- The container that comes up beside the old one is native too. -/
theorem Duty.Rises.native_beside (h : duty.Rises b number old post)
    (hfound : ∀ c ∈ duty.found, c.Native b.project b.service.name)
    (htaken : ∀ n ∈ duty.taken, n < Numbering.bound) {new : Container}
    (hlabels : new.labels = Labels.ofInstance b.project b.service.name number
      b.service.fingerprint)
    (hname : new.name = containerName b.project b.service.name number) :
    ∀ c ∈ old ++ [new], c.Native b.project b.service.name ∧ c.number = duty.number := by
  rcases h.native hfound htaken with ⟨hbound, hnumber, hold⟩
  intro c hc
  rcases List.mem_append.mp hc with hc | hc
  · exact hold c hc
  · rw [List.mem_singleton.mp hc, ← hnumber]
    exact native_of_new b hbound hlabels hname

/-- Every container in hand is native, and has the number of the duty. -/
theorem Posture.native (h : Posture b duty hand rest)
    (hfound : ∀ c ∈ duty.found, c.Native b.project b.service.name)
    (htaken : ∀ n ∈ duty.taken, n < Numbering.bound) :
    ∀ c ∈ hand.containers, c.Native b.project b.service.name ∧ c.number = duty.number := by
  have hopening : ∀ c ∈ duty.found, c.Native b.project b.service.name ∧ c.number = duty.number := by
    intro c hc
    refine ⟨hfound c hc, ?_⟩
    cases duty with
    | create => exact absurd hc List.not_mem_nil
    | _ => rw [List.mem_singleton.mp hc, Duty.number]
  have hstopped : ∀ c ∈ duty.found, ∀ d ∈ [c.stopped],
      d.Native b.project b.service.name ∧ d.number = duty.number := by
    intro c hc d hd
    rw [List.mem_singleton.mp hd, ← (hopening c hc).2]
    exact (hfound c hc).of_same (Container.stopped_id c) (Container.stopped_labels c)
      (Or.inl (Container.stopped_name c))
  cases h with
  | opening => exact hopening
  | barred => exact hopening
  | halted c => exact hstopped c (List.mem_singleton_self c)
  | removed => exact fun c hc => absurd hc List.not_mem_nil
  | started c =>
      intro d hd
      rw [List.mem_singleton.mp hd]
      exact (hfound c (List.mem_singleton_self c)).of_same rfl rfl (Or.inl rfl)
  | stopped c => exact hstopped c (List.mem_singleton_self c)
  | poised hrises => exact (hrises.native hfound htaken).2.2
  | raised fresh done todo hrises => exact hrises.native_beside hfound htaken rfl rfl
  | risen fresh hrises => exact hrises.native_beside hfound htaken rfl rfl
  | replaced c number fresh hnumber =>
      intro d hd
      rw [List.mem_singleton.mp hd]
      have hsame : number = (Duty.recreate c).number := (Container.number_of_ok hnumber).symm
      rw [← hsame]
      exact native_of_new b (numberOf_lt_bound hnumber) rfl rfl

end Postures

/-! ### Passes -/

namespace Pass

variable {pass : Pass} {s : Store} {plan : Plan}

/-- Containers that are accounted for are native if those of the beginning were. -/
theorem native_of_accounted (hplan : pass.planFor s.containers = .ok plan)
    (hnative : ∀ c ∈ s.containers, c.Native pass.project.name pass.service.name)
    {cs : List Container} (h : Accounted (pass.brief s) (pass.untouched s.containers)
      (pass.duties plan.missing s.containers) cs) :
    ∀ c ∈ cs, c.Native pass.project.name pass.service.name := by
  intro c hc
  rcases h with ⟨accounts, hduties, hvalid, hstock⟩
  have hsub : ∀ d : Container, d ∈ (pass.untouched s.containers : Multiset Container) +
      (pass.duties plan.missing s.containers : Multiset Duty).bind (fun duty =>
        (duty.found : Multiset Container)) →
      d.Native pass.project.name pass.service.name := by
    intro d hd
    rw [← stock_eq] at hd
    exact hnative d hd
  rw [← Multiset.mem_coe, hstock, Multiset.mem_add, held, Multiset.mem_bind] at hc
  rcases hc with hc | ⟨a, ha, hc⟩
  · exact hsub c (Multiset.mem_add.mpr (Or.inl hc))
  · have hduty : a.duty ∈ pass.duties plan.missing s.containers := by
      rw [← Multiset.mem_coe, ← hduties]
      exact Multiset.mem_map_of_mem _ ha
    refine ((hvalid a ha).native (fun d hd => ?_) (fun n hn => ?_) c hc).1
    · exact hsub d (Multiset.mem_add.mpr (Or.inr (Multiset.mem_bind.mpr ⟨a.duty, hduty, hd⟩)))
    · have hmissing : n ∈ (plan.missing : Multiset Nat) := by
        rw [← bind_taken pass plan.missing s.containers]
        exact Multiset.mem_bind.mpr ⟨a.duty, hduty, hn⟩
      exact ((about_of_planFor hplan).above n hmissing).1

/-- A pass keeps a store homely, under every order of moves and whatever fails. -/
theorem homely_play (H : Host ρ) (project : Project) (service : Service) (grace : Option Nat)
    (marks : Marks) (site : Site ρ) (moves : List Move) (hcalm : H.calm site.world)
    (h : Homely project.name service.name (H.store site.world)) :
    Homely project.name service.name
      (H.store (play H.engine moves (start project service grace marks) site).2.world) := by
  have hreached := reached_of_distinct H.forgetful project service grace marks site moves
    hcalm h.tidy.toDistinct fun s hs => absurd hs List.not_mem_nil
  rw [play_fields] at hreached
  have hcancel : ∀ w, H.calm w ∧ (H.store w).Tidy →
      H.calm (H.engine.cancel w) ∧ (H.store (H.engine.cancel w)).Tidy :=
    fun w hw => ⟨(H.cancel_calm w hw.1).1, (H.cancel_calm w hw.1).2 ▸ hw.2⟩
  have htidy : H.calm (play H.engine moves (start project service grace marks) site).2.world ∧
      (H.store (play H.engine moves (start project service grace marks) site).2.world).Tidy :=
    play_kept H.call_tidy hcancel moves ⟨hcalm, h.tidy⟩
  refine ⟨htidy.2, ?_⟩
  rcases accounted_of_reached hreached _ (List.mem_singleton_self _) with
    hsame | ⟨plan, hplan, haccounted⟩
  · intro c hc
    exact h.native c (hsame ▸ hc)
  · exact native_of_accounted hplan h.native haccounted

end Pass

/-- Passes over a service lead to homely stores. -/
theorem homely_of_reachable {project : Project} {name : String} {s : Store}
    (h : Reachable project name s) : Homely project.name name s := by
  induction h with
  | blank hnth =>
      exact ⟨⟨⟨List.nodup_nil, fun _ _ c hc => absurd hc List.not_mem_nil, hnth⟩, List.nodup_nil⟩,
        fun c hc => absurd hc List.not_mem_nil⟩
  | expecting pending _ ih =>
      exact ⟨⟨⟨ih.tidy.nodup, ih.tidy.unused, ih.tidy.supply⟩, ih.tidy.names⟩, ih.native⟩
  | pass H service grace marks site moves hname hcalm _ ih =>
      rw [← hname] at ih ⊢
      exact Pass.homely_play H project service grace marks site moves hcalm ih

end Fleet
