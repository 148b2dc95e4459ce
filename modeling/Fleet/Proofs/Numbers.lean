import Fleet.Proofs.Native
import Fleet.Proofs.Origin
import Fleet.Proofs.Rank

/-!
# The numbers of a service

The numbers that the containers of a service have after a successful pass follow from those
they had before, and from the scale. What a plan does to numbers is arithmetic on a list.
What has to be added is that the operations carry it out: a container that is started keeps
its number, and one that replaces another one takes its number over, by way of a label that
is written in decimal digits and read back.

So a duty is looked at for the numbers it leaves behind (`Duty.numbers`). Those of all duties
of a plan, with those of the containers that are as they should be, are the numbers of what
is kept and the new ones (`numbers_duties`). No order of the operations comes into it.

## Main definitions

* `Numbering.Follows`: The numbers that a service has after others.
* `Duty.numbers`: The numbers that a duty leaves behind.
* `Renumbered`: The containers of a service have the numbers that follow.

## Theorems

* `follows_of_perm`: What a plan does to numbers.
* `numbers_duties`: What the duties of a pass do to them.
* `renumbered_of_ok`: What a successful pass does to them.
-/

namespace Fleet

variable {ρ : Type}

/-! ### What a plan does to numbers -/

namespace Numbering

/-- The numbers that a service with a scale has after others. -/
structure Follows (scale : Nat) (before after : List Nat) : Prop where
  nodup : after.Nodup
  -- If there were not too many they all stay, and new ones continue above the highest.
  grown : before.length ≤ scale → ∀ n, n ∈ after ↔
    n ∈ before ∨ (top before < n ∧ n ≤ top before + (scale - before.length))
  -- Of too many the lowest stay, as many as wanted.
  shrunk : scale < before.length → after.length = scale ∧ (∀ n ∈ after, n ∈ before) ∧
    ∀ n ∈ after, ∀ m ∈ before, m ∉ after → n < m

end Numbering

namespace Plan

variable {cs : List Container} {scale : Nat}

/-- The new numbers of a plan. -/
theorem missing_eq {plan : Plan} (h : ofListing (cs.map (·.summary)) scale = .ok plan) :
    plan.missing = List.range' (Numbering.top (cs.map (·.number)) + 1) (scale - cs.length) := by
  have hlength := (ofListing_ok h).length
  by_cases hfew : cs.length < scale
  · simp only [ofListing, List.length_map, bind, Except.bind, pure, Except.pure] at h
    rw [if_pos hfew] at h
    cases hallocate : Numbering.allocate (cs.map (·.summary)) (scale - cs.length) with
    | error cause =>
        rw [hallocate] at h
        cases h
    | ok missing =>
        rw [hallocate] at h
        simp only at h
        rcases Numbering.allocate_ok hallocate with ⟨_, rfl, _⟩
        cases hsplit : splitExcess (cs.map (·.summary)) scale with
        | error cause =>
            rw [hsplit] at h
            cases h
        | ok split =>
            rw [hsplit] at h
            rw [← Except.ok.inj h]
  · have hnone : scale - cs.length = 0 := by omega
    rw [hnone, List.length_eq_zero_iff] at hlength
    rw [hnone, hlength, List.range'_zero]

/-- No container that is too many has a lower number than one that is kept. -/
theorem number_le_of_excess {c d : Container} (hc : c ∈ keptOf cs scale)
    (hd : d ∈ excessOf cs scale) : c.number ≤ d.number := by
  unfold keptOf at hc
  unfold excessOf at hd
  by_cases hfew : cs.length ≤ scale
  · rw [if_pos hfew] at hd
    exact absurd hd List.not_mem_nil
  · rw [if_neg hfew] at hc hd
    have hsorted := inOrder_sorted cs
    rw [← List.take_append_drop scale (inOrder cs), List.pairwise_append] at hsorted
    exact hsorted.2.2 c hc d hd

/-- What a plan does to numbers: those that follow are the new ones and those of what is kept. -/
theorem follows_of_perm (hnodup : (cs.map (·.number)).Nodup) {after : List Nat}
    (hperm : after.Perm (List.range' (Numbering.top (cs.map (·.number)) + 1) (scale - cs.length) ++
      (keptOf cs scale).map (·.number))) :
    Numbering.Follows scale (cs.map (·.number)) after := by
  have hsplit := (keptOf_append_excessOf_perm cs scale).map (·.number)
  rw [List.map_append] at hsplit
  have hkept : ((keptOf cs scale).map (·.number)).Nodup :=
    (List.nodup_append.mp (hsplit.nodup_iff.mpr hnodup)).1
  have hold : ∀ n ∈ (keptOf cs scale).map (·.number), n ∈ cs.map (·.number) :=
    fun n hn => hsplit.subset (List.mem_append_left _ hn)
  refine ⟨?_, ?_, ?_⟩
  · rw [hperm.nodup_iff, List.nodup_append]
    refine ⟨List.nodup_range', hkept, ?_⟩
    intro n hn m hm
    have := Numbering.le_top (hold m hm)
    rw [List.mem_range'_1] at hn
    omega
  · intro hfew n
    rw [List.length_map] at hfew ⊢
    rw [hperm.mem_iff, List.mem_append, List.mem_range'_1, keptOf, if_pos hfew, or_comm]
    refine or_congr_right ?_
    omega
  · intro hmany
    rw [List.length_map] at hmany
    have hnone : scale - cs.length = 0 := by omega
    rw [hnone, List.range'_zero, List.nil_append] at hperm
    refine ⟨?_, fun n hn => hold n (hperm.subset hn), ?_⟩
    · rw [hperm.length_eq, List.length_map, length_keptOf]
      omega
    · intro n hn m hm hgone
      rcases List.mem_map.mp (hperm.subset hn) with ⟨c, hc, rfl⟩
      have hexcess : m ∈ (excessOf cs scale).map (·.number) :=
        (List.mem_append.mp (hsplit.symm.subset hm)).resolve_left fun hkept =>
          hgone (hperm.symm.subset hkept)
      rcases List.mem_map.mp hexcess with ⟨d, hd, rfl⟩
      have hle := number_le_of_excess hc hd
      have hne : c.number ≠ d.number := fun heq => hgone (heq ▸ hn)
      omega

end Plan

/-! ### What the duties of a pass do to numbers -/

/-- The numbers of the containers that a duty leaves behind. -/
def Duty.numbers : Duty → List Nat
  | create number => [number]
  | remove _ => []
  | restart c | recreate c => [c.number]

namespace Pass

variable {pass : Pass} {s : Store} {plan : Plan}

/-- The numbers that the duties leave behind, with those of the containers that are as they should
    be, are the new ones and those of what is kept. -/
theorem numbers_duties (pass : Pass) (missing : List Nat) (cs : List Container) :
    ((pass.idle cs).map (·.number) : Multiset Nat) +
      (pass.duties missing cs : Multiset Duty).bind (fun duty => (duty.numbers : Multiset Nat)) =
      ↑missing + ↑((pass.kept cs).map (·.number)) := by
  have hcreate : ((missing.map Duty.create : List Duty) : Multiset Duty).bind
      (fun duty => (duty.numbers : Multiset Nat)) = ↑missing := by
    rw [← Multiset.map_coe, Multiset.bind_map]
    exact (Multiset.bind_singleton _ id).trans (Multiset.map_id _)
  have hremove : (((pass.excess cs).map Duty.remove : List Duty) : Multiset Duty).bind
      (fun duty => (duty.numbers : Multiset Nat)) = 0 := by
    rw [← Multiset.map_coe, Multiset.bind_map]
    exact Multiset.bind_zero _
  have hupkeep : ((pass.kept cs).filterMap pass.upkeepDuty : Multiset Duty).bind
      (fun duty => (duty.numbers : Multiset Nat)) =
      Multiset.map (·.number) (((pass.kept cs).filterMap pass.upkeepDuty : Multiset Duty).bind
        fun duty => (duty.found : Multiset Container)) := by
    rw [Multiset.map_bind]
    refine Multiset.bind_congr fun duty hduty => ?_
    rcases List.mem_filterMap.mp hduty with ⟨c, _, hc⟩
    rcases upkeepDuty_cases hc with ⟨_, rfl⟩ | ⟨_, _, rfl⟩
    · rfl
    · rfl
  have hkept := congrArg (Multiset.map (·.number)) (kept_split pass (pass.kept cs))
  rw [Multiset.map_add, Multiset.map_coe, Multiset.map_coe, ← hupkeep] at hkept
  rw [duties, ← Multiset.coe_add, ← Multiset.coe_add, Multiset.add_bind, Multiset.add_bind,
    hcreate, hremove, add_zero, hkept, idle]
  exact add_left_comm _ _ _

/-- What a duty leaves behind has the numbers that it should, and bears the names of its numbers if
    it is new. -/
theorem left_numbers (hplan : pass.planFor s.containers = .ok plan)
    (hnumbered : ∀ c ∈ pass.listed s.containers, Numbering.numberOf c.summary = .ok c.number)
    {duty : Duty} (hduty : duty ∈ pass.duties plan.missing s.containers) (fresh : String) :
    (duty.left (pass.brief s) fresh).map (·.number) = duty.numbers ∧
    ∀ d ∈ duty.left (pass.brief s) fresh, Numbering.numberOf d.summary = .ok d.number ∧
      ((∃ c ∈ s.containers, c.id = d.id) ∨
        d.name = containerName pass.project.name pass.service.name d.number) := by
  have hrisen : ∀ {number : Nat}, number < Numbering.bound →
      ([Container.risen (pass.brief s) number fresh].map (·.number) = [number]) ∧
      ∀ d ∈ [Container.risen (pass.brief s) number fresh],
        Numbering.numberOf d.summary = .ok d.number ∧ ((∃ c ∈ s.containers, c.id = d.id) ∨
          d.name = containerName pass.project.name pass.service.name d.number) := by
    intro number hbound
    rcases native_of_new (pass.brief s) hbound (c := .risen (pass.brief s) number fresh) rfl rfl
      with ⟨hnative, hnumber⟩
    refine ⟨by rw [List.map_cons, hnumber, List.map_nil], fun d hd => ?_⟩
    rw [List.mem_singleton.mp hd]
    refine ⟨hnative.numbered, Or.inr ?_⟩
    rw [hnumber]
    rfl
  rcases mem_duties hduty with ⟨number, hnumber, rfl⟩ | ⟨c, _, rfl⟩ | ⟨c, hc, _, _, rfl⟩ |
    ⟨c, hc, _, rfl⟩
  · exact hrisen ((about_of_planFor hplan).above number hnumber).1
  · exact ⟨rfl, fun d hd => absurd hd List.not_mem_nil⟩
  · have hread := numberOf_congr (d := { c with state := .running }) rfl
      (hnumbered c (mem_listed_of_kept hc))
    have hsame := Container.number_of_ok hread
    refine ⟨congrArg (· :: []) hsame, fun d hd => ?_⟩
    rw [List.mem_singleton.mp hd]
    refine ⟨hread.trans (congrArg Except.ok hsame.symm), Or.inl ⟨c, Renders.mem_of_kept hc, rfl⟩⟩
  · have hread := hnumbered c (mem_listed_of_kept hc)
    simp only [Duty.left, hread]
    exact hrisen (numberOf_lt_bound hread)

end Pass

/-! ### What a pass does to numbers -/

/-- The containers of a service have the numbers that follow those before, and what has been added
    is among them and has the name of its number. -/
structure Renumbered (project : Project) (service : Service) (before after : List Container) :
    Prop where
  numbered : ∀ c ∈ ofService project service after, Numbering.numberOf c.summary = .ok c.number
  follows : Numbering.Follows service.desiredScale
    ((ofService project service before).map (·.number))
    ((ofService project service after).map (·.number))
  named : ∀ d ∈ after, (∀ c ∈ before, c.id ≠ d.id) → d ∈ ofService project service after ∧
    d.name = containerName project.name service.name d.number

namespace Pass

variable {pass : Pass} {s : Store} {H : Host ρ} {fair : Prop} {site : Site ρ}

theorem renumbered_of_reached {project : Project} {service : Service}
    (hproject : pass.project = project) (hservice : pass.service = service)
    (h : Reached H fair s pass site)
    (hnumbered : ∀ c ∈ ofService project service s.containers,
      Numbering.numberOf c.summary = .ok c.number)
    (hnodup : ((ofService project service s.containers).map (·.number)).Nodup)
    (hok : pass.result? = some (.ok ())) :
    Renumbered project service s.containers (H.store site.world).containers := by
  subst hproject hservice
  rcases left_of_ok h hok with ⟨plan, outcomes, hplan, hduties, houtcomes, hstock⟩
  have hdischarged : pass.Discharged s (H.store site.world).containers plan outcomes :=
    ⟨hduties, fun o ho => (houtcomes o ho).1, fun o ho => (houtcomes o ho).2, hstock⟩
  have hown := ofService_left hduties hdischarged.steps hstock
  have hleft := fun o (ho : o ∈ outcomes) =>
    left_numbers hplan hnumbered (hdischarged.mem_duties ho) o.2
  have hafter : (((ofService pass.project pass.service (H.store site.world).containers).map
      (·.number) : List Nat) : Multiset Nat) =
      ↑plan.missing + ↑((pass.kept s.containers).map (·.number)) := by
    rw [← numbers_duties pass plan.missing s.containers, ← Multiset.map_coe, hown,
      Multiset.map_add, Multiset.map_coe, Multiset.map_bind, ← hduties, Multiset.bind_map]
    congr 1
    refine Multiset.bind_congr fun o ho => ?_
    rw [Multiset.map_coe, (hleft o ho).1]
  refine ⟨fun c hc => ?_, Plan.follows_of_perm hnodup ?_, fun d hd hnew => ?_⟩
  · rw [← Multiset.mem_coe, hown, Multiset.mem_add, Multiset.mem_bind] at hc
    rcases hc with hc | ⟨o, ho, hc⟩
    · exact hnumbered c (mem_listed_of_kept (List.mem_filter.mp hc).1)
    · exact ((hleft o ho).2 c hc).1
  · rw [Plan.missing_eq hplan, Multiset.coe_add, Multiset.coe_eq_coe] at hafter
    exact hafter
  · rcases hdischarged.mem_iff.mp hd with hsame | ⟨o, ho, hd'⟩
    · have hmem : d ∈ s.containers := by
        rcases List.mem_append.mp hsame with hsame | hsame
        · exact (List.mem_filter.mp hsame).1
        · exact Renders.mem_of_kept (List.mem_filter.mp hsame).1
      exact absurd rfl (hnew d hmem)
    · rcases hdischarged.steps o ho with ⟨steps, hsteps⟩
      have haccepts := ((left_upToDate (hdischarged.mem_duties ho) hsteps o.2).2 d hd').1
      refine ⟨List.mem_filter.mpr ⟨hd, haccepts⟩, ((hleft o ho).2 d hd').2.resolve_left ?_⟩
      rintro ⟨c, hc, hid⟩
      exact hnew c hc hid

/-- If the containers of a service have distinct numbers, a pass that reports success leaves it with
    the numbers that follow them, whatever the order of its moves. -/
theorem renumbered_of_ok (H : Host ρ) (project : Project) (service : Service) (grace : Option Nat)
    (marks : Marks) (site : Site ρ) (hcalm : H.calm site.world)
    (hdistinct : (H.store site.world).Distinct)
    (hnumbered : ∀ c ∈ ofService project service (H.store site.world).containers,
      Numbering.numberOf c.summary = .ok c.number)
    (hnodup : ((ofService project service (H.store site.world).containers).map (·.number)).Nodup)
    (moves : List Move)
    (hok : (play H.engine moves (start project service grace marks) site).1.result? =
      some (.ok ())) :
    let after := (play H.engine moves (start project service grace marks) site).2
    Renumbered project service (H.store site.world).containers
      (H.store after.world).containers := by
  intro after
  have hreached := reached_of_distinct H.forgetful project service grace marks site moves hcalm
    hdistinct fun s hs => absurd hs List.not_mem_nil
  have hfields := play_fields H.engine moves (start project service grace marks) site
  exact renumbered_of_reached (H := H.forgetful) (congrArg Pass.project hfields)
    (congrArg Pass.service hfields) hreached hnumbered hnodup hok

end Pass

namespace Sample

theorem numbered_crew (scale : UInt32) :
    ∀ c ∈ ofService project (manned scale) crewSite.world.store.containers,
      Numbering.numberOf c.summary = .ok c.number := by
  have hlisted : ofService project (manned scale) crewSite.world.store.containers =
      [container, last, idle] := listed_crew scale
  intro c hc
  rw [hlisted, List.mem_cons, List.mem_pair] at hc
  rcases hc with rfl | rfl | rfl <;> rfl

theorem nodup_crew (scale : UInt32) :
    ((ofService project (manned scale) crewSite.world.store.containers).map (·.number)).Nodup := by
  have hlisted : ofService project (manned scale) crewSite.world.store.containers =
      [container, last, idle] := listed_crew scale
  rw [hlisted]
  decide

theorem afterListing_crew :
    (scaling 2).afterListing ([container, last, idle].map (·.summary)) =
      Pass.afterJobs (.ofTasks ((shrinking.operations project.name (manned 2) none false).map
        Job.fresh)) := by
  have hplan : Plan.ofListing ([container, last, idle].map (·.summary))
      (scaling 2).service.desiredScale = .ok shrinking := planFor_crew
  rw [Pass.afterListing, Pass.operations, hplan]
  rfl

theorem grown_ok : (scaled 4).1.result? = some (.ok ()) := eq_ok_of_isOk (by decide +kernel)

theorem shrunk_ok : (scaled 2).1.result? = some (.ok ()) := by
  have hmoves : shuffled = [.poll 2, .poll 0] ++ shuffled.drop 2 := rfl
  have hlisted : (Pass.play Drill.host.engine [.poll 2, .poll 0] (scaling 2) crewSite).1 =
      { scaling 2 with
        stage := (scaling 2).afterListing ([container, last, idle].map (·.summary)) } := rfl
  rw [scaled, hmoves, Pass.play_append, hlisted, afterListing_crew]
  exact eq_ok_of_isOk (by decide +kernel)

end Sample

namespace Pass

/-- At a greater scale a number above the highest comes in, at a smaller one the highest goes, and
    replacements take their numbers over. -/
theorem renumbered_sample :
    ((Sample.scaled 4).1.result? = some (.ok ()) ∧
      Renumbered Sample.project (Sample.manned 4) Sample.crewSite.world.store.containers
        (Drill.host.store (Sample.scaled 4).2.world).containers) ∧
    (Sample.scaled 2).1.result? = some (.ok ()) ∧
      Renumbered Sample.project (Sample.manned 2) Sample.crewSite.world.store.containers
        (Drill.host.store (Sample.scaled 2).2.world).containers := by
  have hcalm : Drill.host.calm Sample.crewSite.world := fun _ hi => absurd hi List.not_mem_nil
  have hdistinct := Sample.tidy_crew.toDistinct
  refine ⟨⟨Sample.grown_ok, ?_⟩, Sample.shrunk_ok, ?_⟩
  · exact renumbered_of_ok Drill.host Sample.project (Sample.manned 4) none Marks.none
      Sample.crewSite hcalm hdistinct (Sample.numbered_crew 4) (Sample.nodup_crew 4)
      Sample.shuffled Sample.grown_ok
  · exact renumbered_of_ok Drill.host Sample.project (Sample.manned 2) none Marks.none
      Sample.crewSite hcalm hdistinct (Sample.numbered_crew 2) (Sample.nodup_crew 2)
      Sample.shuffled Sample.shrunk_ok

end Pass

end Fleet
