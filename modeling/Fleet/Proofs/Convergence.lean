import Fleet.Proofs.Pass
import Fleet.Proofs.Sample

/-!
# What a successful pass leaves behind

A pass that reports success has brought its service in line: exactly as many
containers as wanted, each of them running and created from the service's present
description. This holds from any store whose ids are distinct, under any order of
moves and whatever failures were laid in store, since a pass that reports success
has met none of them.

The count goes by duties. Every duty but a removal leaves one container of the
service behind, and the duties of a pass together with the containers it leaves
alone are as many as the scale asks for.

## Main definitions

* `Converged`: The containers of a service are as described.

## Theorems

* `reached_of_distinct`: It is known where a pass stands under any order of moves.
* `left_of_ok`: What a successful pass leaves behind, duty by duty.
* `converged_of_ok`: A successful pass has brought its service in line.
-/

namespace Fleet

variable {ρ : Type}

/-- The containers of a service. -/
def ofService (project : Project) (service : Service) (cs : List Container) : List Container :=
  cs.filter fun c => (Labels.serviceFilter project.name service.name).accepts c.labels

/-- A container is as its service describes it. -/
structure Container.UpToDate (service : Service) (c : Container) : Prop where
  running : c.state = .running
  current : c.labels.find? Labels.fingerprintKey = some service.fingerprint

/-- As many containers as wanted, each as described. -/
structure Converged (project : Project) (service : Service) (cs : List Container) : Prop where
  count : (ofService project service cs).length = service.desiredScale
  each : ∀ c ∈ ofService project service cs, c.UpToDate service

namespace Pass

variable {H : Host ρ} {fair : Prop} {s : Store} {pass : Pass} {site : Site ρ} {w : ρ}

theorem intact_of_distinct (hcalm : H.calm w) (hdistinct : (H.store w).Distinct)
    (htrail : ∀ s ∈ H.trail w, s.containers = (H.store w).containers)
    (hpeace : fair → H.peaceful w ∧ (H.store w).pending = fun _ => none) :
    Intact H (pass.brief (H.store w)) fair (H.store w).containers w :=
  ⟨⟨hcalm, hdistinct, le_rfl, fun _ hn => hdistinct.not_mem_ids hn, rfl, hpeace⟩, rfl,
    htrail⟩

/-- Whatever the moves, and whatever fails, it is known where a pass stands that began on a store
    with distinct ids. -/
theorem reached_of_distinct (H : Host ρ) (project : Project) (service : Service)
    (grace : Option Nat) (marks : Marks) (site : Site ρ) (moves : List Move)
    (hcalm : H.calm site.world) (hdistinct : (H.store site.world).Distinct)
    (htrail : ∀ s ∈ H.trail site.world, s.containers = (H.store site.world).containers) :
    Reached H False (H.store site.world)
      (play H.engine moves (start project service grace marks) site).1
      (play H.engine moves (start project service grace marks) site).2 :=
  reached_play not_false moves (start_reached project service grace marks
    (intact_of_distinct hcalm hdistinct htrail False.elim))

/-- What a successful pass leaves behind: what it left alone, and what each duty leaves. -/
theorem left_of_ok (h : Reached H fair s pass site) (hok : pass.result? = some (.ok ())) :
    ∃ (plan : Plan) (outcomes : Multiset (Duty × String)),
      pass.planFor s.containers = .ok plan ∧
      outcomes.map (·.1) = (pass.duties plan.missing s.containers : Multiset Duty) ∧
      (∀ o ∈ outcomes, (∃ steps, (o.1.operation (pass.brief s)).steps = .ok steps) ∧
        ((pass.brief s).New o.2 ∨
          ∀ fresh, o.1.left (pass.brief s) fresh = o.1.left (pass.brief s) o.2)) ∧
      ((H.store site.world).containers : Multiset Container) =
        ↑(pass.untouched s.containers) +
          outcomes.bind fun o => (o.1.left (pass.brief s) o.2 : Multiset Container) := by
  rcases pass with ⟨project, service, grace, marks, stage⟩
  cases stage with
  | ended result =>
      have hresult : result = .ok () := Option.some.inj hok
      rcases h with ⟨_, error, herror⟩ | ⟨plan, failure, tripped, hplan, hledger, hnone⟩
      · rw [hresult] at herror
        cases herror
      · rw [hnone hresult] at hledger
        rcases hledger.left with ⟨outcomes, hduties, houtcomes, hstock⟩
        exact ⟨plan, outcomes, hplan, hduties, houtcomes, hstock⟩
  | _ => cases hok

/-! ### The duties one by one -/

end Pass

/-- How many containers of the service a duty leaves behind. -/
def Duty.yield : Duty → Nat
  | .remove _ => 0
  | _ => 1

theorem upToDate_risen (b : Brief) (number : Nat) (id : String) :
    (Container.risen b number id).UpToDate b.service :=
  ⟨rfl, Labels.find?_fingerprint_ofInstance⟩

namespace Pass

variable {pass : Pass} {cs : List Container}

theorem left_upToDate {missing : List Nat} {duty : Duty} {s : Store} {steps : List Step}
    (h : duty ∈ pass.duties missing cs)
    (hsteps : (duty.operation (pass.brief s)).steps = .ok steps) (fresh : String) :
    (duty.left (pass.brief s) fresh).length = duty.yield ∧
      ∀ c ∈ duty.left (pass.brief s) fresh,
        pass.filter.accepts c.labels = true ∧ c.UpToDate pass.service := by
  have hrisen : ∀ number, pass.filter.accepts (Container.risen (pass.brief s) number fresh).labels =
      true ∧ (Container.risen (pass.brief s) number fresh).UpToDate pass.service :=
    fun number => ⟨Labels.accepts_ofInstance, upToDate_risen (pass.brief s) number fresh⟩
  rcases mem_duties h with ⟨number, _, rfl⟩ | ⟨c, _, rfl⟩ | ⟨c, hc, hreplaces, _, rfl⟩ |
    ⟨c, _, _, rfl⟩
  · refine ⟨rfl, ?_⟩
    intro d hd
    rw [List.mem_singleton.mp hd]
    exact hrisen number
  · exact ⟨rfl, fun d hd => absurd hd List.not_mem_nil⟩
  · refine ⟨rfl, ?_⟩
    intro d hd
    rw [List.mem_singleton.mp hd]
    exact ⟨(mem_listed.mp (mem_listed_of_kept hc)).2, rfl, current_of_not_replaces hreplaces⟩
  · rcases Duty.steps_cases hsteps with ⟨_, heq, _⟩ | ⟨_, heq, _⟩ | ⟨_, heq, _⟩ |
      ⟨_, number, heq, hnumber, _⟩
    · cases heq
    · cases heq
    · cases heq
    · cases heq
      simp only [Duty.left, hnumber]
      refine ⟨rfl, ?_⟩
      intro d hd
      rw [List.mem_singleton.mp hd]
      exact hrisen number

theorem mem_idle {c : Container} (hc : c ∈ pass.idle cs) :
    pass.filter.accepts c.labels = true ∧ c.UpToDate pass.service := by
  rcases List.mem_filter.mp hc with ⟨hkept, hnone⟩
  rcases upkeepDuty_eq_none (Option.isNone_iff_eq_none.mp hnone) with ⟨hreplaces, hrunning⟩
  refine ⟨(mem_listed.mp (mem_listed_of_kept hkept)).2, ?_, current_of_not_replaces hreplaces⟩
  cases hstate : c.state with
  | running => rfl
  | _ =>
      rw [hstate] at hrunning
      cases hrunning

theorem yield_kept (pass : Pass) (kept : List Container) :
    (kept.filter fun c => (pass.upkeepDuty c).isNone).length +
      ((kept.filterMap pass.upkeepDuty).map Duty.yield).sum = kept.length := by
  induction kept with
  | nil => rfl
  | cons c kept ih =>
      cases hduty : pass.upkeepDuty c with
      | none =>
          rw [List.filter_cons_of_pos (by rw [hduty]; rfl), List.filterMap_cons_none hduty,
            List.length_cons, List.length_cons]
          omega
      | some duty =>
          have hyield : duty.yield = 1 := by
            rcases upkeepDuty_cases hduty with ⟨_, rfl⟩ | ⟨_, _, rfl⟩
            · rfl
            · rfl
          rw [List.filter_cons_of_neg (by rw [hduty]; exact Bool.false_ne_true),
            List.filterMap_cons_some hduty, List.map_cons, List.sum_cons, hyield,
            List.length_cons]
          omega

/-- The duties of a pass and what it leaves alone make as many containers as wanted. -/
theorem yield_duties {plan : Plan} (hplan : pass.planFor cs = .ok plan) :
    (pass.idle cs).length + ((pass.duties plan.missing cs).map Duty.yield).sum =
      pass.service.desiredScale := by
  have hcreate : ∀ missing : List Nat,
      ((missing.map Duty.create).map Duty.yield).sum = missing.length := by
    intro missing
    induction missing with
    | nil => rfl
    | cons number missing ih =>
        have hone : (Duty.create number).yield = 1 := rfl
        rw [List.map_cons, List.map_cons, List.sum_cons, ih, List.length_cons, hone]
        omega
  have hremove : ∀ excess : List Container,
      ((excess.map Duty.remove).map Duty.yield).sum = 0 := by
    intro excess
    induction excess with
    | nil => rfl
    | cons c excess ih => rw [List.map_cons, List.map_cons, List.sum_cons, ih, Duty.yield]
  have habout := about_of_planFor hplan
  have hkept := yield_kept pass (pass.kept cs)
  have hmissing := habout.length
  have hlength := Plan.length_keptOf (pass.listed cs) pass.service.desiredScale
  rw [← kept] at hlength
  rw [duties, List.map_append, List.map_append, List.sum_append, List.sum_append, hcreate,
    hremove, idle]
  omega

theorem filter_coe_bool (p : Container → Bool) (cs : List Container) :
    Multiset.filter (fun c => p c = true) ↑cs = ↑(cs.filter p) := by
  simp only [Multiset.filter_coe, Bool.decide_eq_true]

/-- The containers of the service where the duties have been seen to, whatever other containers are
    around: those that were as they should be, and what the duties leave. -/
theorem ofService_left_around {s s' : Store} {missing : List Nat} {around : Multiset Container}
    {outcomes : Multiset (Duty × String)}
    (hapart : ∀ c ∈ around, pass.filter.accepts c.labels = false)
    (hduties : outcomes.map (·.1) = (pass.duties missing s.containers : Multiset Duty))
    (houtcomes : ∀ o ∈ outcomes, ∃ steps, (o.1.operation (pass.brief s)).steps = .ok steps)
    (hstock : (s'.containers : Multiset Container) = around + ↑(pass.idle s.containers) +
      outcomes.bind fun o => (o.1.left (pass.brief s) o.2 : Multiset Container)) :
    (ofService pass.project pass.service s'.containers : Multiset Container) =
      ↑(pass.idle s.containers) +
        outcomes.bind fun o => (o.1.left (pass.brief s) o.2 : Multiset Container) := by
  have haround : Multiset.filter (fun c => pass.filter.accepts c.labels = true) around = 0 :=
    Multiset.filter_eq_nil.mpr fun c hc => by
      rw [hapart c hc]
      exact Bool.false_ne_true
  have hidle : (pass.idle s.containers).filter (fun c => pass.filter.accepts c.labels) =
      pass.idle s.containers := List.filter_eq_self.mpr fun c hc => (mem_idle hc).1
  rw [ofService, ← filter_coe_bool, hstock, Multiset.filter_add, Multiset.filter_add]
  change Multiset.filter (fun c : Container => pass.filter.accepts c.labels = true) _ +
    Multiset.filter (fun c : Container => pass.filter.accepts c.labels = true) _ +
    Multiset.filter (fun c : Container => pass.filter.accepts c.labels = true) _ = _
  rw [haround, zero_add, filter_coe_bool, hidle, Multiset.filter_bind]
  congr 1
  refine Multiset.bind_congr fun o ho => ?_
  rw [filter_coe_bool]
  congr 1
  rcases houtcomes o ho with ⟨steps, hsteps⟩
  have hduty : o.1 ∈ pass.duties missing s.containers := by
    rw [← Multiset.mem_coe, ← hduties]
    exact Multiset.mem_map_of_mem _ ho
  exact List.filter_eq_self.mpr fun c hc => ((left_upToDate hduty hsteps o.2).2 c hc).1

theorem accepts_of_mem_outside {c : Container} (hc : c ∈ pass.outside cs) :
    pass.filter.accepts c.labels = false := by
  simpa only [Bool.not_eq_true'] using (List.mem_filter.mp hc).2

/-- The containers of the service after a successful pass: those that were as they should be, and
    what the duties leave. -/
theorem ofService_left {s s' : Store} {plan : Plan} {outcomes : Multiset (Duty × String)}
    (hduties : outcomes.map (·.1) = (pass.duties plan.missing s.containers : Multiset Duty))
    (houtcomes : ∀ o ∈ outcomes, ∃ steps, (o.1.operation (pass.brief s)).steps = .ok steps)
    (hstock : (s'.containers : Multiset Container) = ↑(pass.untouched s.containers) +
      outcomes.bind fun o => (o.1.left (pass.brief s) o.2 : Multiset Container)) :
    (ofService pass.project pass.service s'.containers : Multiset Container) =
      ↑(pass.idle s.containers) +
        outcomes.bind fun o => (o.1.left (pass.brief s) o.2 : Multiset Container) := by
  rw [untouched, ← Multiset.coe_add] at hstock
  exact ofService_left_around (fun c hc => accepts_of_mem_outside (Multiset.mem_coe.mp hc))
    hduties houtcomes hstock

/-- What is known of a successful pass brings its service in line. -/
theorem converged_of_reached {H : Host ρ} {fair : Prop} {s : Store} {site : Site ρ}
    (h : Reached H fair s pass site) (hok : pass.result? = some (.ok ())) :
    Converged pass.project pass.service (H.store site.world).containers := by
  rcases left_of_ok h hok with ⟨plan, outcomes, hplan, hduties, houtcomes, hstock⟩
  have hown := ofService_left hduties (fun o ho => (houtcomes o ho).1) hstock
  have hleft : ∀ o ∈ outcomes, (o.1.left (pass.brief s) o.2).length = o.1.yield ∧
      ∀ c ∈ o.1.left (pass.brief s) o.2,
        pass.filter.accepts c.labels = true ∧ c.UpToDate pass.service := by
    intro o ho
    rcases (houtcomes o ho).1 with ⟨steps, hsteps⟩
    have hduty : o.1 ∈ pass.duties plan.missing s.containers := by
      rw [← Multiset.mem_coe, ← hduties]
      exact Multiset.mem_map_of_mem _ ho
    exact left_upToDate hduty hsteps o.2
  refine ⟨?_, ?_⟩
  · have hcard := congrArg Multiset.card hown
    have hyields : (outcomes.map fun o => (o.1.left (pass.brief s) o.2).length).sum =
        ((pass.duties plan.missing s.containers).map Duty.yield).sum := by
      rw [Multiset.map_congr rfl fun o ho => (hleft o ho).1, ← Multiset.sum_coe,
        ← Multiset.map_coe, ← hduties, Multiset.map_map]
      rfl
    rw [Multiset.card_add, Multiset.card_bind, Multiset.coe_card, Multiset.coe_card] at hcard
    rw [hcard, ← yield_duties hplan, ← hyields]
    rfl
  · intro c hc
    rw [← Multiset.mem_coe, hown, Multiset.mem_add, Multiset.mem_bind] at hc
    rcases hc with hc | ⟨o, ho, hc⟩
    · exact (mem_idle hc).2
    · exact ((hleft o ho).2 c hc).2

/-- So it does after any moves. -/
theorem converged_of_play {H : Host ρ} {fair : Prop} {s : Store} {site : Site ρ}
    {moves : List Move} (h : Reached H fair s (play H.engine moves pass site).1
      (play H.engine moves pass site).2)
    (hok : (play H.engine moves pass site).1.result? = some (.ok ())) :
    Converged pass.project pass.service
      (H.store (play H.engine moves pass site).2.world).containers := by
  have hconverged := converged_of_reached h hok
  have hfields := play_fields H.engine moves pass site
  rw [congrArg Pass.project hfields, congrArg Pass.service hfields] at hconverged
  exact hconverged

/-- A pass that reports success has brought its service in line, whatever the order of its moves. -/
theorem converged_of_ok (H : Host ρ) (project : Project) (service : Service) (grace : Option Nat)
    (marks : Marks) (site : Site ρ) (hcalm : H.calm site.world)
    (hdistinct : (H.store site.world).Distinct) (moves : List Move)
    (hok : (play H.engine moves (start project service grace marks) site).1.result? =
      some (.ok ())) :
    Converged project service (H.store
      (play H.engine moves (start project service grace marks) site).2.world).containers := by
  have hreached := reached_of_distinct H.forgetful project service grace marks site moves hcalm
    hdistinct fun s hs => absurd hs List.not_mem_nil
  exact converged_of_play hreached hok

/-- A pass that replaces a container which was created from another description. -/
theorem converged_sample :
    (play Drill.host.engine [.poll 0, .poll 0] Sample.pass Sample.site).1.result? = some (.ok ()) ∧
    Converged Sample.project Sample.service (play Drill.host.engine [.poll 0, .poll 0]
      Sample.pass Sample.site).2.world.store.containers :=
  ⟨rfl, converged_of_ok Drill.host Sample.project Sample.service none Marks.none Sample.site
    (fun _ hi => absurd hi List.not_mem_nil) (Sample.tidy rfl rfl).toDistinct [.poll 0, .poll 0] rfl⟩

end Pass

end Fleet
