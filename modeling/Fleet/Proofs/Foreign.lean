import Fleet.Proofs.Bystanders

/-!
# Containers of other services

A pass creates containers by name and does everything else to them by id, so nothing in its
requests says that they are about its own service. What says so is the labels. A container
that is listed has the labels of the service, stopping, starting and renaming it keep
them, and a new one is created with them. So whatever an operation has in hand belongs to
the service, in every posture, and as the rest of the store is in nobody's hand it is as
it was.

This is so between any two requests, however the pass goes on and whatever becomes of it.
A name that a container of another service has makes a request fail, and does no more.

That the rest is in its order as well is known apart from all operations, from the order
of ids, which here is followed through every store that a host has been through.

## Main definitions

* `Pass.LeavesOthers`: What is not the concern of a pass is as it was.

## Theorems

* `Posture.own`: What is in hand belongs to the service.
* `outside_of_accounted`: What is not the concern of a pass is in nobody's hand.
* `leaves_others`: It is as it was at every moment.
-/

namespace Fleet

variable {ρ : Type}

/-! ### What is in hand -/

theorem Duty.Rises.own {b : Brief} {duty : Duty} {number : Nat} {old : List Container}
    {post : List Step} (h : duty.Rises b number old post)
    (hfound : ∀ c ∈ duty.found,
      (Labels.serviceFilter b.project b.service.name).accepts c.labels = true)
    (new : Container) (hnew : new.labels = (Container.risen b number new.id).labels) :
    ∀ c ∈ old ++ [new],
      (Labels.serviceFilter b.project b.service.name).accepts c.labels = true := by
  intro c hc
  rcases List.mem_append.mp hc with hc | hc
  · cases h with
    | create => exact absurd hc List.not_mem_nil
    | recreate c' =>
        rw [List.mem_singleton.mp hc, Container.parked_labels]
        exact hfound c' (List.mem_singleton_self c')
  · rw [List.mem_singleton.mp hc, hnew]
    exact Labels.accepts_ofInstance

/-- What an operation has in hand belongs to the service, if what it was begun for does. -/
theorem Posture.own {b : Brief} {duty : Duty} {hand : Hand} {rest : List Step}
    (h : Posture b duty hand rest)
    (hfound : ∀ c ∈ duty.found,
      (Labels.serviceFilter b.project b.service.name).accepts c.labels = true) :
    ∀ c ∈ hand.containers,
      (Labels.serviceFilter b.project b.service.name).accepts c.labels = true := by
  cases h with
  | opening => exact hfound
  | barred => exact hfound
  | halted c =>
      intro d hd
      rw [List.mem_singleton.mp hd, Container.stopped_labels]
      exact hfound c (List.mem_singleton_self c)
  | removed => exact fun d hd => absurd hd List.not_mem_nil
  | started c =>
      intro d hd
      rw [List.mem_singleton.mp hd]
      exact hfound c (List.mem_singleton_self c)
  | stopped c =>
      intro d hd
      rw [List.mem_singleton.mp hd, Container.stopped_labels]
      exact hfound c (List.mem_singleton_self c)
  | poised hrises =>
      exact fun d hd => hrises.own hfound (.risen b _ "") rfl d (List.mem_append_left _ hd)
  | raised _ _ _ hrises => exact hrises.own hfound _ rfl
  | risen _ hrises => exact hrises.own hfound _ rfl
  | replaced c number fresh =>
      intro d hd
      rw [List.mem_singleton.mp hd]
      exact Labels.accepts_ofInstance

namespace Pass

variable {pass : Pass} {s : Store} {plan : Plan}

/-- Nobody has a duty towards a container of another service. -/
theorem accepts_of_found {missing : List Nat} {cs : List Container} {duty : Duty}
    (hduty : duty ∈ pass.duties missing cs) :
    ∀ c ∈ duty.found, pass.filter.accepts c.labels = true := by
  rcases mem_duties hduty with ⟨number, _, rfl⟩ | ⟨c, hc, rfl⟩ | ⟨c, hc, _, _, rfl⟩ |
    ⟨c, hc, _, rfl⟩
  · exact fun d hd => absurd hd List.not_mem_nil
  · intro d hd
    rw [List.mem_singleton.mp hd]
    exact (mem_listed.mp (mem_listed_of_excess hc)).2
  · intro d hd
    rw [List.mem_singleton.mp hd]
    exact (mem_listed.mp (mem_listed_of_kept hc)).2
  · intro d hd
    rw [List.mem_singleton.mp hd]
    exact (mem_listed.mp (mem_listed_of_kept hc)).2

/-- What is not the concern of a pass is in nobody's hand. -/
theorem outside_of_accounted {missing : List Nat} {ds : List Container}
    (h : Accounted (pass.brief s) (pass.untouched s.containers)
      (pass.duties missing s.containers) ds) :
    (pass.outside ds : Multiset Container) = pass.outside s.containers := by
  rcases h with ⟨accounts, hduties, hvalid, hstock⟩
  refine outside_of_own hstock fun c hc => ?_
  rcases Multiset.mem_bind.mp hc with ⟨a, ha, hc⟩
  have hduty : a.duty ∈ pass.duties missing s.containers := by
    rw [← Multiset.mem_coe, ← hduties]
    exact Multiset.mem_map_of_mem _ ha
  exact (hvalid a ha).own (accepts_of_found hduty) c hc

/-! ### At every moment -/

/-- What is not the concern of a pass is as it was and in the order it was in, and what has been
    added is the concern of the pass. -/
structure LeavesOthers (pass : Pass) (cs ds : List Container) : Prop where
  outside : pass.outside ds = pass.outside cs
  added : ∀ d ∈ ds, (∀ c ∈ cs, c.id ≠ d.id) → pass.filter.accepts d.labels = true

theorem leavesOthers_of_outside {cs ds : List Container}
    (h : pass.outside ds = pass.outside cs) : pass.LeavesOthers cs ds := by
  refine ⟨h, fun d hd hnew => ?_⟩
  by_contra hnot
  have hmem : d ∈ pass.outside ds :=
    List.mem_filter.mpr ⟨hd, by rw [Bool.eq_false_iff.mpr hnot]; rfl⟩
  rw [h] at hmem
  exact hnew d (List.mem_filter.mp hmem).1 rfl

end Pass

/-- Whatever is asked of a host, the order is kept in all stores that it has been through. -/
theorem Host.trail_descends_keptByCalls (H : Host ρ) (known : List String) :
    KeptByCalls H.engine fun w => H.calm w ∧
      ∀ t ∈ H.trail w ++ [H.store w], t.Descends known := by
  rintro q w ⟨hcalm, h⟩
  have hnow : (H.store w).Descends known :=
    h _ (List.mem_append_right _ (List.mem_singleton_self _))
  have hafter := H.descends_keptByCalls known q w ⟨hcalm, hnow⟩
  refine ⟨hafter.1, fun t ht => ?_⟩
  rcases List.mem_append.mp ht with ht | ht
  · rcases H.call_trail q w t ht with ht | rfl
    · exact h t (List.mem_append_left _ ht)
    · exact hafter.2
  · rw [List.mem_singleton.mp ht]
    exact hafter.2

namespace Pass

/-- The order of ids is kept in all stores that a pass has gone through. -/
theorem trail_descends_of_play (H : Host ρ) (pass : Pass) (site : Site ρ) (moves : List Move)
    (hcalm : H.calm site.world) (hdistinct : (H.store site.world).Distinct)
    (htrail : ∀ t, t ∉ H.trail site.world) :
    let after := (play H.engine moves pass site).2
    ∀ t ∈ H.trail after.world ++ [H.store after.world],
      t.Descends ((H.store site.world).containers.map (·.id)) := by
  intro after
  refine (play_kept (H.trail_descends_keptByCalls _) ?_ moves ⟨hcalm, ?_⟩).2
  · rintro w ⟨hw, h⟩
    rcases H.cancel_calm w hw with ⟨hw', hstore⟩
    refine ⟨hw', fun t ht => h t ?_⟩
    rcases List.mem_append.mp ht with ht | ht
    · exact List.mem_append_left _ (H.cancel_trail w t ht)
    · rw [hstore] at ht
      exact List.mem_append_right _ ht
  · intro t ht
    rcases List.mem_append.mp ht with ht | ht
    · exact absurd ht (htrail t)
    · rw [List.mem_singleton.mp ht]
      exact hdistinct.descends

/-- At every moment of a pass and after it, whatever fails, whenever the work is ended, whatever the
    order of its moves and whatever becomes of it, the containers of other services are as they
    were and in their order, and what has been added belongs to the service. -/
theorem leaves_others (H : Host ρ) (project : Project) (service : Service)
    (grace : Option Nat) (marks : Marks) (w : ρ) (channel : Channel) (recreated : Bool)
    (hcalm : H.calm w) (hdistinct : (H.store w).Distinct) (moves : List Move) :
    let pass := start project service grace marks
    let after := (play H.recorded.engine moves pass ⟨(w, []), channel, recreated⟩).2
    ∀ t ∈ after.world.2 ++ [H.store after.world.1],
      pass.LeavesOthers (H.store w).containers t.containers := by
  intro pass after t ht
  have hcalm' : H.recorded.calm (w, []) := hcalm
  have hreached := reached_of_distinct H.recorded project service grace marks
    ⟨(w, []), channel, recreated⟩ moves hcalm' hdistinct fun s hs => absurd hs List.not_mem_nil
  have hdescends := trail_descends_of_play H.recorded pass ⟨(w, []), channel, recreated⟩ moves
    hcalm' hdistinct (fun _ => List.not_mem_nil) t ht
  have haccounted := accounted_of_reached hreached t ht
  rw [play_fields] at haccounted
  have hsame : (pass.outside t.containers : Multiset Container) =
      pass.outside (H.store w).containers := by
    rcases haccounted with hsame | ⟨plan, _, haccounted⟩
    · exact congrArg (fun cs => (pass.outside cs : Multiset Container)) hsame
    · exact outside_of_accounted haccounted
  exact leavesOthers_of_outside (hdescends.eq_of_coe_eq hdistinct.nodup List.filter_sublist
    List.filter_sublist hsame)

/-- A replacement beside a container of another service, broken off between two requests. -/
theorem leaves_others_sample :
    (Drill.host.calm Sample.tiersSite.world ∧ Sample.tiersSite.world.store.Distinct) ∧
    ∀ t ∈ (play Drill.host.recorded.engine [.poll 0, .poll 0, .cancel]
        (start Sample.tiers Sample.service none Marks.none)
        ⟨(Sample.tiersSite.world, []), .fresh, false⟩).2.world.2 ++
      [(play Drill.host.recorded.engine [.poll 0, .poll 0, .cancel]
        (start Sample.tiers Sample.service none Marks.none)
        ⟨(Sample.tiersSite.world, []), .fresh, false⟩).2.world.1.store],
      (start Sample.tiers Sample.service none Marks.none).LeavesOthers
        Sample.tiersSite.world.store.containers t.containers :=
  have hcalm : Drill.host.calm Sample.tiersSite.world := fun _ hi => absurd hi List.not_mem_nil
  ⟨⟨hcalm, Sample.distinct_tiers⟩, leaves_others Drill.host Sample.tiers Sample.service none
    Marks.none Sample.tiersSite.world .fresh false hcalm Sample.distinct_tiers
    [.poll 0, .poll 0, .cancel]⟩

end Pass

end Fleet
