import Fleet.Proofs.Rollout

/-!
# Nothing left to do

A rollout that has succeeded leaves a project on which another one does nothing: it makes
no request that could change something, says nothing, and succeeds.

Each service is in line when its pass is over, and its gates were open before that. Both
are about the containers of a few services, and none of these has its pass later, because
a service is passed after everything it depends on. So what one pass has settled, the
others leave alone (`settled_of_led`), and at the end every service is settled at once.

A second pass over a settled service has no duties. It waits at gates that are open,
lists what is there, and is done (`inevitable_quiet`). Nothing is replaced by it, so no
service is marked, and the next pass has no duties either.

## Main definitions

* `Settled`: A service that is in line and whose gates are open.
* `Undisturbed`: A site at which nothing has happened since another one.
* `Pass.Quiet`: A pass that has done nothing so far.

## Theorems

* `Pass.duties_of_converged`: A service that is in line asks for nothing.
* `Pass.inevitable_quiet`: A pass over a settled service is bound to do nothing.
* `settled_of_led`: Services that have had their passes stay settled.
* `Rollout.inevitable_quiet`: A rollout over settled services is bound to do nothing.
* `Rollout.stable_of_ok`: After a rollout that has succeeded another one does nothing.
-/

namespace Fleet

variable {ρ : Type}

/-- A service that is in line and whose gates are open. -/
def Settled (project : Project) (service : Service) (cs : List Container) : Prop :=
  Converged project service cs ∧
    ∀ dependency ∈ service.healthDependencies, Opens project.name dependency cs

/-- A site at which nothing can happen and nothing has happened since another one. -/
structure Undisturbed (H : Host ρ) (first site : Site ρ) : Prop where
  peaceful : H.peaceful site.world
  clean : (H.store site.world).pending = fun _ => none
  distinct : (H.store site.world).Distinct
  containers : (H.store site.world).containers = (H.store first.world).containers
  mutations : (H.store site.world).mutations = (H.store first.world).mutations
  channel : site.channel = first.channel
  lowered : site.recreated = false

/-! ### Looking -/

/-- Every request is entered in the log, whatever becomes of it. -/
theorem Store.log_call (q : Request) (s : Store) : (s.call q).2.log = s.log ++ [q] := by
  cases hp : s.pending q.verb with
  | some reason =>
      rw [call_of_pending_some hp]
      rfl
  | none =>
      rw [call_of_pending_none hp]
      rcases serve_cases q (s.logged q) with ⟨_, _, heq, _⟩ | ⟨_, _, heq⟩
      · rw [heq]
        rfl
      · rw [heq]
        rfl

/-- What only looks is not entered among the requests that may have changed something. -/
theorem Store.mutations_of_looking {q : Request} (hq : q.isMutation = false) (s : Store) :
    (s.call q).2.mutations = s.mutations := by
  rw [mutations, log_call, List.filter_append, List.filter_cons_of_neg (by rw [hq]; exact
    Bool.false_ne_true), List.filter_nil, List.append_nil, mutations]

/-- In fairness looking leaves the requests alone that may have changed something. -/
theorem quiet_keptByLooking {H : Host ρ} {b : Brief} {cs : List Container}
    (mutations : List Request) :
    KeptByLooking H.engine fun w =>
      Intact H b True cs w ∧ (H.store w).mutations = mutations := by
  rintro q w hq ⟨h, hmutations⟩
  refine ⟨intact_keptByLooking q w hq h, ?_⟩
  rw [(H.call_peaceful q w (h.sound.peace trivial).1).2.2, Store.mutations_of_looking hq]
  exact hmutations

namespace Pass

variable {pass : Pass} {cs : List Container}

/-! ### A pass with nothing to do -/

/-- A service that is in line asks for nothing, unless it is marked. -/
theorem duties_of_converged (h : Converged pass.project pass.service cs)
    (hforces : pass.marks.forces pass.service = false) :
    ∃ plan, pass.planFor cs = .ok plan ∧ pass.duties plan.missing cs = [] := by
  have hplan : pass.planFor cs = .ok ⟨[], [], (pass.listed cs).map (·.summary)⟩ :=
    Plan.ofListing_of_length_eq h.count
  have hexcess : pass.excess cs = [] := List.map_eq_nil_iff.mp (about_of_planFor hplan).excess.symm
  have hkept : (pass.kept cs).filterMap pass.upkeepDuty = [] := by
    refine List.filterMap_eq_nil_iff.mpr fun c hc => ?_
    have hcurrent := h.each c (mem_listed_of_kept hc)
    have hnot : pass.replaces c = false := by
      rw [replaces, hforces, Bool.or_false, Plan.isDrifted, bne_eq_false_iff_eq]
      exact hcurrent.current
    rw [upkeepDuty, hnot, hcurrent.running]
    rfl
  refine ⟨_, hplan, ?_⟩
  rw [duties, hexcess, hkept]
  rfl

/-- Without duties nobody is in the way. -/
theorem fit_of_idle {b : Brief} {frame : Multiset Container} :
    Fit b True frame ([] : List Duty) where
  known _ hduty := absurd hduty (Multiset.notMem_zero _)
  steps _ _ hduty := absurd hduty (Multiset.notMem_zero _)
  clear _ _ _ hsplit := absurd hsplit.symm (Multiset.cons_ne_zero)

/-- A stage at which nothing is carried out, and at which a listing brings what is there. -/
def Rests (pass : Pass) (cs : List Container) : Stage → Prop
  | .working _ => False
  | .listing _ _ errand => errand.Bears (Lists True pass.filter cs)
  | _ => True

/-- A pass that has done nothing so far. -/
structure Quiet (H : Host ρ) (s : Store) (first : Site ρ) (pass : Pass) (stage : Stage)
    (site : Site ρ) : Prop where
  world : Intact H (pass.brief s) True s.containers site.world ∧
    (H.store site.world).mutations = (H.store first.world).mutations
  channel : site.channel = first.channel
  lowered : site.recreated = false
  rests : pass.Rests s.containers stage

variable {H : Host ρ} {s : Store} {first site : Site ρ}

theorem afterGates_rests (pass : Pass) (cs : List Container) (gates : Group Gate.Watch) :
    pass.Rests cs (afterGates gates) := by
  unfold afterGates
  cases gates.isOver with
  | false => exact trivial
  | true => cases gates.outcome <;> exact trivial

theorem afterListing_rests {plan : Plan} (hplan : pass.planFor s.containers = .ok plan)
    (hduties : pass.duties plan.missing s.containers = []) :
    pass.Rests s.containers
      (pass.afterListing ((pass.listed s.containers).map (·.summary))) := by
  rw [afterListing_eq, hplan]
  simp only [hduties]
  exact trivial

/-- A pass without duties stays quiet. -/
theorem quiet_step {plan : Plan} (hplan : pass.planFor s.containers = .ok plan)
    (hduties : pass.duties plan.missing s.containers = []) {stage : Stage} {move : Move}
    (hmove : Enabled { pass with stage } move) (h : Quiet H s first pass stage site) :
    let next := step H.engine move { pass with stage } site
    Quiet H s first pass next.1.stage next.2 := by
  have hcancel : move ≠ .cancel := fun heq => not_enabled_cancel _ (heq ▸ hmove)
  cases stage with
  | working jobs => exact h.rests.elim
  | ended result => exact hmove.elim
  | gating gates =>
      exact ⟨Gate.step_keeps (quiet_keptByLooking _) pass.project.name move
        (fun heq => absurd heq hcancel) gates h.world, h.channel, h.lowered,
        afterGates_rests pass s.containers _⟩
  | listing started waiting errand =>
      cases move with
      | cancel => exact absurd rfl hcancel
      | fire => exact ⟨h.world, h.channel, h.lowered, Errand.bears_wake.mpr h.rests⟩
      | poll place =>
          simp only [step]
          refine ⟨takeListing_keeps (quiet_keptByLooking _) started errand h.world, h.channel,
            h.lowered, ?_⟩
          rcases takeListing_cases started h.world.1 h.rests with
            ⟨_, ⟨waiting', errand', heq, hbears⟩ | ⟨_, error, heq⟩ | heq⟩
          · exact heq ▸ hbears
          · exact heq ▸ trivial
          · exact heq ▸ afterListing_rests hplan hduties

/-- A pass over a settled service that is not marked is bound to do nothing. -/
theorem inevitable_quiet (H : Host ρ) (project : Project) (service : Service)
    (grace : Option Nat) (marks : Marks) {first site : Site ρ}
    (hsettled : Settled project service (H.store first.world).containers)
    (hforces : marks.forces service = false) (h : Undisturbed H first site) :
    Inevitable H.engine (fun result after => result = .ok () ∧ Undisturbed H first after)
      (start project service grace marks) site := by
  let pass := start project service grace marks
  let s := H.store site.world
  have hcontainers : s.containers = (H.store first.world).containers := h.containers
  rw [← hcontainers] at hsettled
  have hidle : ∃ plan, pass.planFor s.containers = .ok plan ∧
      pass.duties plan.missing s.containers = [] := duties_of_converged hsettled.1 hforces
  rcases hidle with ⟨plan, hplan, hduties⟩
  have hintact : Intact H.forgetful (pass.brief s) True s.containers site.world :=
    intact_of_distinct (H.calm_of_peaceful _ h.peaceful) h.distinct
      (fun s hs => absurd hs List.not_mem_nil) fun _ => ⟨h.peaceful, h.clean⟩
  have hbound := inevitable_start (H := H.forgetful) project service grace marks hplan
    (by rw [hduties]; exact fit_of_idle) hsettled.2 hintact
  let Inv := fun (pass' : Pass) (site' : Site ρ) =>
    pass' = { pass with stage := pass'.stage } ∧ Quiet H.forgetful s first pass pass'.stage site'
  have hstep : ∀ move (pass' : Pass) (site' : Site ρ), pass'.Enabled move → Inv pass' site' →
      Inv (pass'.step H.engine move site').1 (pass'.step H.engine move site').2 := by
    rintro move pass' site' hmove ⟨hpass', hquiet⟩
    refine ⟨?_, ?_⟩
    · rw [step_fields, hpass']
    · rw [hpass'] at hmove ⊢
      exact quiet_step hplan hduties hmove hquiet
  have hstart : Inv pass site :=
    ⟨rfl, ⟨⟨hintact, h.mutations⟩, h.channel, h.lowered, afterGates_rests _ _ _⟩⟩
  refine (hbound.with_invariant hstep hstart).imp ?_
  rintro result after ⟨hsucceeds, pass', _, hquiet⟩
  rcases hquiet.world with ⟨hafter, hmutations⟩
  rcases hafter.sound.peace trivial with ⟨hpeaceful, hclean⟩
  exact ⟨hsucceeds.1, hpeaceful, hclean, hafter.sound.distinct,
    hafter.containers.trans hcontainers, hmutations, hquiet.channel, hquiet.lowered⟩

end Pass

/-! ### What passes settle -/

/-- Whether a service is in line is a matter of its own containers. -/
theorem Converged.congr {project : Project} {service : Service} {cs ds : List Container}
    (h : Converged project service cs)
    (hsame : ofService project service ds = ofService project service cs) :
    Converged project service ds where
  count := hsame ▸ h.count
  each := hsame ▸ h.each

namespace Rollout

variable {H : Host ρ} {project : Project} {grace : Option Nat} {site now : Site ρ}
  {done : List Service} {marks : Marks}

/-- Services that have had their passes stay settled. -/
theorem settled_of_led (hled : Led H project grace site done marks now)
    (hdistinct : (done.map (·.name)).Nodup) (hordered : Ordered [] done) :
    ∀ service ∈ done, Settled project service (H.store now.world).containers := by
  refine hled.in_order (P := fun done _ now => ∀ service ∈ done,
    Settled project service (H.store now.world).containers) hdistinct hordered
    (fun _ hservice => absurd hservice List.not_mem_nil) ?_
  intro done marks before after last hordered hnew hdependencies hleads ih service hservice
  have hother : ∀ name ∈ done.map (·.name), name ≠ last.name :=
    fun name hname heq => hnew (heq ▸ hname)
  rcases List.mem_append.mp hservice with hdone | hself
  · -- Neither the service nor one that it depends on has had the last pass.
    rcases ih service hdone with ⟨hconverged, hopens⟩
    refine ⟨hconverged.congr (hleads.ofService_eq (hother _ (List.mem_map_of_mem hdone))),
      fun dependency hdependency => hleads.opens (hother _ ?_) (hopens dependency hdependency)⟩
    exact (hordered.closed hdone (service.healthDependencies_subset hdependency)).resolve_left
      List.not_mem_nil
  · rw [List.mem_singleton.mp hself]
    exact ⟨hleads.converged, fun dependency hdependency => hleads.opens
      (hother _ (hdependencies _ (last.healthDependencies_subset hdependency)))
      (hleads.clears _ hdependency)⟩

/-! ### A rollout with nothing to do -/

/-- A rollout over settled services, none of which declares that its containers be replaced, is
    bound to do nothing. -/
theorem inevitable_quiet (H : Host ρ) (project : Project) (grace : Option Nat) {first site : Site ρ}
    {rest : List Service}
    (hsettled : ∀ service ∈ rest, Settled project service (H.store first.world).containers)
    (hunforced : ∀ service ∈ rest, service.lifecycle ≠ some .forceRecreate)
    (h : Undisturbed H first site) :
    Inevitable H.engine (fun result after => result = .ok () ∧ Undisturbed H first after)
      (proceed project grace .none rest) site := by
  induction rest generalizing site with
  | nil => exact .ended _ ⟨rfl, h⟩
  | cons service rest ih =>
      rcases List.forall_mem_cons.mp hsettled with ⟨hservice, hrest⟩
      rcases List.forall_mem_cons.mp hunforced with ⟨hkeeps, hkeep⟩
      have hforces : Marks.none.forces service = false := by
        rw [Marks.forces, beq_eq_false_iff_ne]
        exact hkeeps
      have hquiet := Pass.inevitable_quiet H project service grace .none hservice hforces h
      refine inevitable_passing hquiet (fun result after hafter => hafter.1) fun after hafter => ?_
      have hmarks : (Pass.start project service grace .none).marksAfter after = .none := by
        rw [Pass.marksAfter, hafter.2.lowered]
        rfl
      rw [hmarks]
      refine ih hrest hkeep ?_
      exact { hafter.2 with lowered := rfl }

/-- After a rollout that has succeeded another one is bound to do nothing: it succeeds, says
    nothing, makes no request that could change something, and leaves the containers as they are.
    They have to be those that the first one left, nothing may be about to happen any more, and no
    service may declare that its containers be replaced. -/
theorem stable_of_ok (H : Host ρ) (project : Project) (grace grace' : Option Nat)
    (hunforced : ∀ service ∈ project.services, service.lifecycle ≠ some .forceRecreate)
    (w w' : ρ) {channel channel' : Channel} (hcalm : H.calm w) (hdistinct : (H.store w).Distinct)
    {moves : List Move}
    (hok : (play H.engine moves (start project grace) ⟨w, channel, false⟩).1.result? =
      some (.ok ()))
    (hcontainers : (H.store w').containers =
      (H.store (play H.engine moves (start project grace) ⟨w, channel, false⟩).2.world).containers)
    (hsupply : (H.store w').supply =
      (H.store (play H.engine moves (start project grace) ⟨w, channel, false⟩).2.world).supply)
    (hpeaceful : H.peaceful w') (hclean : (H.store w').pending = fun _ => none) :
    Inevitable H.engine
      (fun result after => result = .ok () ∧ after.channel = channel' ∧
        (H.store after.world).mutations = (H.store w').mutations ∧
        (H.store after.world).containers = (H.store w').containers)
      (start project grace') ⟨w', channel', false⟩ := by
  rcases led_of_ok hcalm hdistinct rfl hok with
    ⟨order, marks, now, horder, hled, hdistinct', hstore⟩
  rw [hstore] at hcontainers hsupply
  have horders := Project.orders_of_ok horder
  let second : Site ρ := ⟨w', channel', false⟩
  have hsettled : ∀ service ∈ order, Settled project service (H.store second.world).containers :=
    hcontainers.symm ▸ settled_of_led hled horders.distinct horders.ordered
  have hundisturbed : Undisturbed H second second :=
    ⟨hpeaceful, hclean, ⟨hcontainers ▸ hdistinct'.nodup,
      hcontainers ▸ hsupply ▸ hdistinct'.unused, hsupply ▸ hdistinct'.supply⟩, rfl, rfl, rfl, rfl⟩
  have hbound := inevitable_quiet H project grace' hsettled
    (fun service hservice => hunforced service (horders.perm.mem_iff.mp hservice)) hundisturbed
  have hstart : start project grace' = proceed project grace' .none order := by
    rw [start, horder]
  rw [hstart]
  exact hbound.imp fun result after hafter =>
    ⟨hafter.1, hafter.2.channel, hafter.2.mutations, hafter.2.containers⟩

end Rollout

/-- A drill at rest: its store, with no failure in store and nothing about to happen. -/
def Drill.atRest (d : Drill) : Drill := ⟨d.store.expecting fun _ => none, false, 0, []⟩

theorem Drill.store_atRest (d : Drill) :
    (host.store d.atRest).containers = (host.store d).containers ∧
      (host.store d.atRest).supply = (host.store d).supply := ⟨rfl, rfl⟩

/-- Once both services are in line, another rollout does nothing. -/
theorem Rollout.stable_sample :
    let second := Sample.rolled.2.world.atRest
    Sample.rolled.1.result? = some (.ok ()) ∧
    Inevitable Drill.host.engine
      (fun result after => result = .ok () ∧ after.channel = .fresh ∧
        (Drill.host.store after.world).mutations = (Drill.host.store second).mutations ∧
        (Drill.host.store after.world).containers = (Drill.host.store second).containers)
      (start Sample.tiers none) ⟨second, .fresh, false⟩ := by
  intro second
  rcases Sample.rolled.2.world.store_atRest with ⟨hcontainers, hsupply⟩
  refine ⟨Sample.rolled_ok, ?_⟩
  refine stable_of_ok Drill.host Sample.tiers none none ?_ Sample.tiersSite.world second ?_
    Sample.distinct_tiers Sample.rolled_ok hcontainers hsupply ⟨rfl, rfl⟩ rfl
  · intro service hservice
    rcases List.mem_pair.mp hservice with rfl | rfl <;> exact nofun
  · exact fun _ hi => absurd hi List.not_mem_nil

end Fleet
