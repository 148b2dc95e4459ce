import Fleet.Proofs.Jammed
import Fleet.Proofs.Sample

/-!
# Stores that passes cannot leave

Where there is a clash, there is an order of moves under which a pass fails and leaves a
clash, even on a store by itself on which nothing else goes wrong. The replacement at
fault has the first turn. If it is obstructed it fails; if it has a rival it may succeed,
and then the rival has the next turn and fails. The failure ends the pass before anything
else is done.

So trying again is no help, however often it is done. A replacement can leave a clash
behind if it is broken off after the new container was created, or if the next pass finds
it out of the way and begins another one. Together with `recovers_of_not_clash` this says
exactly from which stores trying again helps.

## Main definitions

* `Pass.Armed`: Operations that have not begun, and will clash.
* `Pass.Doomed`: Operations that will clash or have done so.
* `Pass.Failing`: A pass that nothing has come of, or whose operations are doomed.
* `Sample.broken`: A store after a pass that met with one failure.

## Theorems

* `Pass.doomed_poll`: Some turn keeps operations doomed.
* `Pass.failing_step`: Some enabled move keeps a pass failing.
* `not_recovers_of_clash`: From a clash no number of passes is bound to help.
* `recovers_iff`: Trying again helps if and only if there is no clash.
-/

namespace Fleet

namespace Pass

/-! ### Operations that clash -/

/-- The replacement of a container, not begun. -/
def replacing (pass : Pass) (s : Store) (c : Container) : Slot Job :=
  ⟨.fresh ((Duty.recreate c).operation (pass.brief s)), false⟩

/-- A replacement has not begun that is obstructed, or has a rival that has not begun either. -/
def Armed (pass : Pass) (s : Store) (slots : Multiset (Slot Job)) (cs : List Container) : Prop :=
  ∃ c ∈ s.containers, pass.replacing s c ∈ slots ∧ (pass.Obstructed cs c ∨
    ∃ d ∈ s.containers, pass.replacing s d ∈ slots ∧ pass.Rivals cs c d)

/-- Operations that will clash, or one of which has failed and left a clash. Nobody is on the
    way. -/
structure Doomed (pass : Pass) (s : Store) (jobs : Group Job) (cs : List Container) : Prop where
  awake : jobs.asleep = []
  fresh : ∀ slot ∈ jobs.slots, slot.started = false
  clash : jobs.failure = none ∧ jobs.tripped = false ∧ pass.Armed s jobs.slots cs ∨
    jobs.failure ≠ none ∧ jobs.tripped = true ∧ pass.Clash cs

variable {pass : Pass} {s : Store} {jobs : Group Job} {site : Site Store} {cs : List Container}
  {c d : Container}

/-- Operations that are doomed are not over without a failure. -/
theorem Doomed.failed_of_isOver (h : pass.Doomed s jobs cs) (hover : jobs.isOver = true) :
    jobs.failure ≠ none ∧ pass.Clash cs := by
  rcases h.clash with ⟨_, _, c, _, hslot, _⟩ | ⟨hfailure, _, hclash⟩
  · rw [(Group.slots_eq_zero_iff jobs).mpr hover] at hslot
    exact absurd hslot (Multiset.notMem_zero _)
  · exact ⟨hfailure, hclash⟩

theorem replacing_ne (hid : d.id ≠ c.id)
    (hc : Numbering.numberOf c.summary = .ok c.number)
    (hd : Numbering.numberOf d.summary = .ok d.number) :
    pass.replacing s d ≠ pass.replacing s c := by
  intro heq
  have hsteps : ((Duty.recreate d).operation (pass.brief s)).steps =
      ((Duty.recreate c).operation (pass.brief s)).steps :=
    congrArg (fun slot : Slot Job => slot.task.operation.steps) heq
  simp only [Duty.operation, Operation.recreate, hc, hd, Except.map, Operation.replacement,
    Except.ok.injEq, List.cons_append, List.cons.injEq, Step.fixed.injEq,
    Request.stop.injEq] at hsteps
  exact hid hsteps.1.1

/-- A replacement that has its turn on a store by itself. -/
theorem poll_replacing (hslot : pass.replacing s c ∈ jobs.slots) (hawake : jobs.asleep = [])
    (htripped : jobs.tripped = false) {result : Except Error Unit}
    (hturn : ((Job.fresh ((Duty.recreate c).operation (pass.brief s))).resume Store.host.engine
      site).1 = .finished result) :
    ∃ place, jobs.Enabled (.poll place) ∧
      let next := jobs.poll (Job.conduct Store.host.engine) place site
      next.2 = ((Job.fresh ((Duty.recreate c).operation (pass.brief s))).resume Store.host.engine
        site).2 ∧
      next.1.asleep = [] ∧ jobs.slots = pass.replacing s c ::ₘ next.1.slots ∧
      next.1.failure = jobs.failure.or (Turn.finished (σ := Job) result).failure? ∧
      next.1.tripped = (Turn.finished (σ := Job) result).failure?.isSome := by
  have hready : jobs.slots = ↑jobs.ready := by rw [Group.slots, hawake, List.append_nil]
  rw [hready, Multiset.mem_coe] at hslot
  rcases List.mem_iff_getElem?.mp hslot with ⟨place, hplace⟩
  refine ⟨place, (List.getElem?_eq_some_iff.mp hplace).1, ?_⟩
  have hgoing : (Job.conduct Store.host.engine).stopped ⟨jobs.tripped, site⟩ = false := by
    rw [htripped]
    rfl
  have hresume : (Job.conduct Store.host.engine).resume (pass.replacing s c).task
      ⟨jobs.tripped, site⟩ = (.finished result, ⟨jobs.tripped, ((Job.fresh ((Duty.recreate
        c).operation (pass.brief s))).resume Store.host.engine site).2⟩) := by
    rw [← hturn]
    rfl
  rcases Group.poll_of_finished hplace (Group.guarded_of_going hgoing hresume) hawake with
    ⟨rest, hslots, hslots', hawake', hfailure, htripped', hworld⟩
  rw [htripped] at htripped'
  exact ⟨hworld, hawake', hslots'.symm ▸ hslots, hfailure, htripped'⟩

/-- The replacement at fault has its turn, on a store by itself. -/
theorem doomed_poll_of_armed (h : pass.Doomed s jobs site.world.containers)
    (hfailure : jobs.failure = none) (htripped : jobs.tripped = false)
    (harmed : pass.Armed s jobs.slots site.world.containers)
    (hsound : Sound Store.host (pass.brief s) False site.world)
    (ht : Homely pass.project.name pass.service.name site.world)
    (hnext : ∀ place, Homely pass.project.name pass.service.name
      (jobs.poll (Job.conduct Store.host.engine) place site).2.world) :
    ∃ place, jobs.Enabled (.poll place) ∧
      pass.Doomed s (jobs.poll (Job.conduct Store.host.engine) place site).1
        (jobs.poll (Job.conduct Store.host.engine) place site).2.world.containers := by
  rcases harmed with ⟨c, hc, hslot, hkind⟩
  have hmem : c ∈ site.world.containers := by
    rcases hkind with hobstructed | ⟨d, _, _, hrivals⟩
    · exact mem_of_due hobstructed.1
    · exact mem_of_due hrivals.1
  have hknown : c.id ∈ ids s.containers := mem_ids.mpr ⟨c, hc, rfl⟩
  rcases List.append_of_mem hmem with ⟨front, back, hplace⟩
  rcases recreate_aftermath hsound ht.tidy hplace hknown (ht.native c hmem).numbered with
    ⟨result, old, new, hturn, hplace', hafter⟩
  rcases poll_replacing hslot h.awake htripped hturn with
    ⟨place, henabled, hworld, hawake, hslots, hfailure', htripped'⟩
  have ht' := hnext place
  rw [hworld] at ht'
  rw [hfailure] at hfailure'
  refine ⟨place, henabled, hawake, ?_, ?_⟩
  · intro slot hmem'
    refine h.fresh slot ?_
    rw [hslots]
    exact Multiset.mem_cons_of_mem hmem'
  rw [hworld]
  rcases hkind with hobstructed | ⟨d, hd, hslot', hrivals⟩
  · rcases clash_of_obstructed ht hplace ht' hplace' hafter hknown hobstructed with
      ⟨⟨error, rfl⟩, hclash⟩
    exact Or.inr ⟨by rw [hfailure']; exact Option.some_ne_none _, htripped', hclash⟩
  · rcases clash_or_obstructed_of_rivals ht hplace ht' hplace' hafter hknown hrivals with
      ⟨⟨error, rfl⟩, hclash⟩ | ⟨rfl, hobstructed⟩
    · exact Or.inr ⟨by rw [hfailure']; exact Option.some_ne_none _, htripped', hclash⟩
    · -- It has succeeded, and its rival, which has not begun, is obstructed now.
      have hmem' := mem_of_due hrivals.2.1
      have hid := id_ne_of_place ht hplace d (mem_around_of_ne hplace hmem' hrivals.2.2.1)
      rw [hslots] at hslot'
      refine Or.inl ⟨hfailure', htripped', d, hd, ?_, Or.inl hobstructed⟩
      exact (Multiset.mem_cons.mp hslot').resolve_left
        (replacing_ne hid (ht.native c hmem).numbered (ht.native d hmem').numbered)

/-- After a failure nobody begins. -/
theorem doomed_poll_of_tripped (h : pass.Doomed s jobs site.world.containers)
    (hover : jobs.isOver = false) (hfailure : jobs.failure ≠ none)
    (htripped : jobs.tripped = true) (hclash : pass.Clash site.world.containers) :
    ∃ place, jobs.Enabled (.poll place) ∧
      pass.Doomed s (jobs.poll (Job.conduct Store.host.engine) place site).1
        (jobs.poll (Job.conduct Store.host.engine) place site).2.world.containers := by
  cases hready : jobs.ready with
  | nil =>
      rw [Group.isOver, hready, h.awake] at hover
      cases hover
  | cons slot rest =>
      have hplace : jobs.ready[0]? = some slot := by rw [hready, List.getElem?_cons_zero]
      have hslot : slot ∈ jobs.slots := by
        rw [Group.slots, hready]
        exact List.mem_append_left _ List.mem_cons_self
      have hstopped : (Job.conduct Store.host.engine).stopped ⟨jobs.tripped, site⟩ = true := by
        rw [htripped]
        rfl
      rcases Group.poll_of_finished hplace
        (Group.guarded_of_stopped (h.fresh slot hslot) hstopped) h.awake with
        ⟨rest', hslots, hslots', hawake, hfailure', htripped', hworld⟩
      refine ⟨0, (List.getElem?_eq_some_iff.mp hplace).1, hawake, ?_, Or.inr ⟨?_, ?_, ?_⟩⟩
      · intro slot' hmem
        refine h.fresh slot' ?_
        rw [hslots, ← hslots']
        exact Multiset.mem_cons_of_mem hmem
      · rw [hfailure']
        intro hnone
        exact hfailure (Option.or_eq_none_iff.mp hnone).1
      · rw [htripped', htripped]
        rfl
      · rw [hworld]
        exact hclash

/-- Some turn keeps operations doomed, on a store by itself. -/
theorem doomed_poll (h : pass.Doomed s jobs site.world.containers) (hover : jobs.isOver = false)
    (hsound : Sound Store.host (pass.brief s) False site.world)
    (ht : Homely pass.project.name pass.service.name site.world)
    (hnext : ∀ place, Homely pass.project.name pass.service.name
      (jobs.poll (Job.conduct Store.host.engine) place site).2.world) :
    ∃ place, jobs.Enabled (.poll place) ∧
      pass.Doomed s (jobs.poll (Job.conduct Store.host.engine) place site).1
        (jobs.poll (Job.conduct Store.host.engine) place site).2.world.containers := by
  rcases h.clash with ⟨hfailure, htripped, harmed⟩ | ⟨hfailure, htripped, hclash⟩
  · exact doomed_poll_of_armed h hfailure htripped harmed hsound ht hnext
  · exact doomed_poll_of_tripped h hover hfailure htripped hclash

/-! ### A whole pass -/

/-- A pass that is on its way to a failure which leaves a clash, or has come to it. -/
def Failing (pass : Pass) (s : Store) (site : Site Store) : Prop :=
  match pass.stage with
  | .gating gates => gates.isOver = false
  | .listing .. => True
  | .working jobs => jobs.isOver = false ∧ pass.Doomed s jobs site.world.containers
  | .ended result => result ≠ .ok () ∧ pass.Clash site.world.containers

theorem clash_of_failing (h : pass.Failing s site) {result : Except Error Unit}
    (hresult : pass.result? = some result) :
    result ≠ .ok () ∧ pass.Clash site.world.containers := by
  rcases pass with ⟨project, service, grace, marks, stage⟩
  cases stage with
  | ended outcome =>
      rw [← Option.some.inj hresult]
      exact h
  | _ => cases hresult

theorem failing_afterGates (hclash : pass.Clash s.containers) (gates : Group Gate.Watch)
    (h : site.world.containers = s.containers) :
    Failing { pass with stage := afterGates gates } s site := by
  unfold afterGates
  cases hover : gates.isOver with
  | false => exact hover
  | true =>
      cases gates.outcome with
      | ok => trivial
      | error error => exact ⟨nofun, h ▸ hclash⟩

theorem failing_afterJobs (h : pass.Doomed s jobs site.world.containers) :
    Failing { pass with stage := afterJobs jobs } s site := by
  unfold afterJobs
  cases hover : jobs.isOver with
  | false => exact ⟨hover, h.awake, h.fresh, h.clash⟩
  | true =>
      rcases h.failed_of_isOver hover with ⟨hfailure, hclash⟩
      refine ⟨?_, hclash⟩
      rcases Option.ne_none_iff_exists'.mp hfailure with ⟨error, herror⟩
      rw [Group.outcome, herror]
      rintro ⟨⟩

/-- Operations that have not begun are doomed where there is a clash. -/
theorem doomed_of_clash (missing : List Nat) (h : pass.Clash s.containers) :
    pass.Doomed s (.ofTasks (((pass.duties missing s.containers).map
      (·.operation (pass.brief s))).map Job.fresh)) s.containers := by
  have hslots : ∀ c, pass.Due s.containers c → pass.replacing s c ∈ (Group.ofTasks
      (((pass.duties missing s.containers).map (·.operation (pass.brief s))).map
        Job.fresh)).slots := by
    intro c hdue
    rw [Group.slots_ofTasks, Multiset.mem_map]
    exact ⟨_, Multiset.mem_coe.mpr (List.mem_map_of_mem (List.mem_map_of_mem
      (mem_duties_of_due missing hdue))), rfl⟩
  refine ⟨rfl, ?_, Or.inl ⟨rfl, rfl, ?_⟩⟩
  · intro slot hslot
    rw [Group.slots_ofTasks] at hslot
    rcases Multiset.mem_map.mp hslot with ⟨job, _, rfl⟩
    rfl
  · rcases obstructed_or_rivals h with ⟨c, hobstructed | ⟨d, hrivals⟩⟩
    · exact ⟨c, mem_of_due hobstructed.1, hslots c hobstructed.1, Or.inl hobstructed⟩
    · exact ⟨c, mem_of_due hrivals.1, hslots c hrivals.1,
        Or.inr ⟨d, mem_of_due hrivals.2.1, hslots d hrivals.2.1, hrivals⟩⟩

theorem failing_afterListing (hclash : pass.Clash s.containers)
    (h : site.world.containers = s.containers) :
    Failing { pass with stage := pass.afterListing ((pass.listed s.containers).map (·.summary)) }
      s site := by
  rw [afterListing_eq]
  cases pass.planFor s.containers with
  | error cause => exact ⟨nofun, h ▸ hclash⟩
  | ok plan =>
      refine failing_afterJobs ?_
      rw [h]
      exact doomed_of_clash plan.missing hclash

/-- Some move keeps a pass failing, on a store by itself. -/
theorem failing_step (hclash : pass.Clash s.containers)
    (hreached : Reached Store.host False s pass site) (hfailing : pass.Failing s site)
    (hgoing : pass.result? = none)
    (ht : Homely pass.project.name pass.service.name site.world)
    (hnext : ∀ move, Homely pass.project.name pass.service.name
      (pass.step Store.host.engine move site).2.world) :
    ∃ move, pass.Enabled move ∧ (pass.step Store.host.engine move site).1.Failing s
      (pass.step Store.host.engine move site).2 := by
  rcases pass with ⟨project, service, grace, marks, stage⟩
  cases stage with
  | gating gates =>
      rcases Group.exists_enabled hfailing with ⟨move, henabled⟩
      have hintact := Gate.step_keeps intact_keptByLooking project.name move
        (fun _ _ hw => hw.cancel not_false) gates hreached
      exact ⟨move, henabled, failing_afterGates hclash _ hintact.containers⟩
  | listing started waiting errand =>
      cases waiting with
      | true => exact ⟨.fire, rfl, trivial⟩
      | false =>
          refine ⟨.poll 0, rfl, ?_⟩
          simp only [step]
          rcases takeListing_cases started hreached.1 hreached.2 with
            ⟨hintact, ⟨waiting', errand', heq, _⟩ | ⟨_, error, heq⟩ | heq⟩
          · rw [heq]
            trivial
          · rw [heq]
            refine ⟨?_, hintact.containers ▸ hclash⟩
            rintro ⟨⟩
          · rw [heq]
            exact failing_afterListing hclash hintact.containers
  | working jobs =>
      rcases hreached with ⟨plan, _, hledger⟩
      rcases doomed_poll hfailing.2 hfailing.1 hledger.sound ht fun place =>
        hnext (.poll place) with ⟨place, henabled, hdoomed⟩
      exact ⟨.poll place, henabled, failing_afterJobs hdoomed⟩
  | ended result => cases hgoing

end Pass

/-! ### Trying again -/

section Again

variable {project : Project} {service : Service} {grace : Option Nat} {marks : Marks}

theorem Pass.clash_play (E : Engine Store) (moves : List Move) (pass : Pass) (site : Site Store)
    (cs : List Container) : (Pass.play E moves pass site).1.Clash cs ↔ pass.Clash cs := by
  rw [Pass.play_fields]
  rfl

/-- A failing pass that is not at its end has a move after which it is failing still. -/
theorem Pass.failing_play {site : Site Store} (moves : List Move)
    (h : Homely project.name service.name site.world)
    (hclash : (start project service grace marks).Clash site.world.containers)
    (hfailing : (play Store.host.engine moves (start project service grace marks) site).1.Failing
      site.world (play Store.host.engine moves (start project service grace marks) site).2)
    (hgoing : (play Store.host.engine moves (start project service grace marks) site).1.result? =
      none) :
    ∃ move, (play Store.host.engine moves (start project service grace marks) site).1.Enabled
        move ∧
      (play Store.host.engine (moves ++ [move]) (start project service grace marks)
        site).1.Failing site.world
        (play Store.host.engine (moves ++ [move]) (start project service grace marks) site).2 := by
  have hintact : Intact Store.host ((start project service grace marks).brief site.world) False
      site.world.containers site.world :=
    intact_of_distinct trivial h.tidy.toDistinct (fun s hs => absurd hs List.not_mem_nil)
      False.elim
  have hhomely := fun moves =>
    homely_play Store.host project service grace marks site moves trivial h
  have hreached := reached_play not_false moves
    (start_reached project service grace marks hintact)
  have hfields := play_fields Store.host.engine moves (start project service grace marks) site
  have hproject : (play Store.host.engine moves (start project service grace marks)
      site).1.project = project := congrArg Pass.project hfields
  have hservice : (play Store.host.engine moves (start project service grace marks)
      site).1.service = service := congrArg Pass.service hfields
  have hnext := fun move => hhomely (moves ++ [move])
  simp only [play_concat] at hnext ⊢
  refine failing_step ((clash_play _ moves _ site _).mpr hclash) hreached hfailing hgoing ?_ ?_
  · rw [hproject, hservice]
    exact hhomely moves
  · rw [hproject, hservice]
    exact hnext

/-- From a clash no number of passes is bound to help. -/
theorem not_recovers_of_clash (n : Nat) {s : Store} (h : Homely project.name service.name s)
    (hclash : (Pass.start project service grace marks).Clash s.containers) :
    ¬RecoversWithin project service grace marks n s := by
  induction n generalizing s with
  | zero => exact id
  | succ n ih =>
      intro hrecovers
      let site : Site Store := ⟨s, .fresh, false⟩
      refine Pass.Inevitable.not_of_strategy (J := fun pass after => ∃ moves,
          pass = (Pass.play Store.host.engine moves (.start project service grace marks) site).1 ∧
          after = (Pass.play Store.host.engine moves (.start project service grace marks) site).2 ∧
          pass.Failing s after)
        ?_ ?_ ⟨[], rfl, rfl, Pass.failing_afterGates hclash _ rfl⟩
        (hrecovers Store Store.host site trivial rfl)
      · rintro _ _ ⟨moves, rfl, rfl, hfailing⟩ hgoing
        rcases Pass.failing_play moves h hclash hfailing hgoing with ⟨move, henabled, hnext⟩
        refine ⟨move, henabled, moves ++ [move], ?_, ?_, ?_⟩
        · rw [Pass.play_concat]
        · rw [Pass.play_concat]
        · rw [← Pass.play_concat]
          exact hnext
      · rintro _ _ result ⟨moves, rfl, rfl, hfailing⟩ hresult
        rcases Pass.clash_of_failing hfailing hresult with ⟨hfailed, hclash'⟩
        rintro (hok | hrecovers)
        · exact hfailed hok
        · refine ih
            (Pass.homely_play Store.host project service grace marks site moves trivial h) ?_
            hrecovers
          exact (Pass.clash_play _ moves _ site _).mp hclash'

end Again

end Fleet

/-! ### Stores that failures lead to -/

namespace Fleet.Sample

/-- The service with another image. -/
def renewed : Service := .plain "web" "app:2"

/-- The service with another image, wanted twice. -/
def doubled : Service := { renewed with scale := 2 }

/-- The store that a first pass makes. -/
def served : Store :=
  (Pass.play Store.host.engine [.poll 0, .poll 0] (.start project service none .none)
    ⟨.empty, .fresh, false⟩).2.world

/-- What that store comes to by a replacement during which a request fails. -/
def broken (verb : Verb) : Store :=
  (Pass.play Store.host.engine [.poll 0, .poll 0] (.start project renewed none .none)
    ⟨served.failNext verb "no such network", .fresh, false⟩).2.world.expecting fun _ => none

theorem reachable_broken (verb : Verb) : Reachable project "web" (broken verb) := by
  have hserved : Reachable project "web" served :=
    .pass Store.host service none .none ⟨.empty, .fresh, false⟩ [.poll 0, .poll 0] rfl trivial
      .empty
  have hfailing : Reachable project "web" (served.failNext verb "no such network") :=
    .expecting _ hserved
  exact .expecting _ (.pass Store.host renewed none .none
    ⟨served.failNext verb "no such network", .fresh, false⟩ [.poll 0, .poll 0] rfl trivial hfailing)

set_option maxRecDepth 100000 in
theorem length_broken_create : (broken .create).containers.length = 1 := by
  decide +kernel

set_option maxRecDepth 100000 in
/-- If the start fails, the old container is out of the way, and the new one has its name. -/
theorem containers_broken_start : ((broken .start).containers.map fun c =>
    (c.id, c.name, c.number, (Pass.start project doubled none .none).replaces c)) =
    [(Store.freshId 1, parkedName (Store.freshId 1) (containerName "demo" "web" 1), 1, true),
      (Store.freshId 2, containerName "demo" "web" 1, 1, false)] := by
  decide +kernel

theorem length_broken_start : (broken .start).containers.length = 2 := by
  have hlength := congrArg List.length containers_broken_start
  rw [List.length_map] at hlength
  exact hlength

/-- As two containers are wanted then, the one with the name is kept. -/
theorem jammed_broken_start : ∃ c,
    (Pass.start project doubled none .none).Jammed (broken .start).containers c := by
  have hcontainers := containers_broken_start
  rcases List.length_eq_two.mp length_broken_start with ⟨c, d, hpair⟩
  rw [hpair] at hcontainers
  simp only [List.map_cons, List.map_nil, List.cons.injEq, Prod.mk.injEq, and_true] at hcontainers
  rcases hcontainers with ⟨⟨hid, _, hnumber, hdue⟩, hid', hname, _, hidle⟩
  have hne : d ≠ c := by
    rintro rfl
    exact absurd (freshId_injective (hid.symm.trans hid')) (by decide)
  refine ⟨c, ?_, ?_, hdue, ?_, d, ?_, hne, ?_⟩
  · rw [length_broken_start]
    decide
  · rw [hpair]
    exact List.mem_cons_self
  · intro e he hother
    rw [hpair] at he
    rcases List.mem_pair.mp he with rfl | rfl
    · exact absurd rfl hother
    · exact hidle
  · rw [hpair]
    exact List.mem_cons_of_mem _ (List.mem_singleton_self d)
  · rw [hname, hnumber]
    rfl

end Fleet.Sample

/-! ### Trying again -/

namespace Fleet

section Exact

variable {project : Project} {service : Service} {grace : Option Nat} {marks : Marks}

/-- From a store that passes have led to, with no failure in store, open gates and numbers left,
    trying again helps if and only if no container is in the way of a replacement, and then the next
    pass already succeeds. -/
theorem recovers_iff {s : Store} (hreachable : Reachable project service.name s)
    (hpending : s.pending = fun _ => none)
    (hopens : ∀ dependency ∈ service.healthDependencies, Opens project.name dependency s.containers)
    (hroom : Numbering.Room s.containers service.desiredScale) :
    ((∃ n, RecoversWithin project service grace marks n s) ↔
      ¬(Pass.start project service grace marks).Clash s.containers) ∧
    (¬(Pass.start project service grace marks).Clash s.containers →
      RecoversWithin project service grace marks 1 s) := by
  have hhomely := homely_of_reachable hreachable
  have hnext : ¬(Pass.start project service grace marks).Clash s.containers →
      RecoversWithin project service grace marks 1 s :=
    recovers_of_not_clash hhomely hpending hopens hroom
  refine ⟨⟨?_, fun hfree => ⟨1, hnext hfree⟩⟩, hnext⟩
  rintro ⟨n, hrecovers⟩ hclash
  exact not_recovers_of_clash n hhomely hclash hrecovers

end Exact

section Samples

open Sample

/-- A replacement that was broken off before there was a new container is made up for by the next
    pass. -/
theorem recovers_sample : RecoversWithin project renewed none .none 1 (broken .create) := by
  refine (recovers_iff (reachable_broken .create) rfl ?_ ?_).2 ?_
  · exact fun dependency h => absurd h List.not_mem_nil
  · intro hfew
    rw [length_broken_create] at hfew
    exact absurd hfew (by decide)
  · rintro ⟨c, hc, _, d, hd, hne, _⟩
    rcases List.length_eq_one_iff.mp length_broken_create with ⟨e, he⟩
    have hc' := (Pass.mem_listed.mp (Pass.mem_listed_of_kept hc)).1
    have hd' := (Pass.mem_listed.mp hd).1
    rw [he, List.mem_singleton] at hc' hd'
    exact hne (hd'.trans hc'.symm)

/-- A replacement whose new container did not start is not made up for, once two are wanted, and no
    order of moves makes up for it either. -/
theorem not_recovers_sample :
    Reachable project doubled.name (broken .start) ∧ (broken .start).pending = (fun _ => none) ∧
    (∀ dependency ∈ doubled.healthDependencies,
      Opens project.name dependency (broken .start).containers) ∧
    Numbering.Room (broken .start).containers doubled.desiredScale ∧
    (¬∃ n, RecoversWithin project doubled none .none n (broken .start)) ∧
    ¬∃ n, MayRecover project doubled none .none n (broken .start) := by
  have hreachable := reachable_broken .start
  have hhopeless : ¬∃ n, MayRecover project doubled none .none n (broken .start) := by
    rintro ⟨n, hrecovers⟩
    rcases jammed_broken_start with ⟨c, hjammed⟩
    exact not_mayRecover_of_jammed n (homely_of_reachable hreachable) hjammed hrecovers
  refine ⟨hreachable, rfl, fun dependency h => absurd h List.not_mem_nil, ?_, ?_, hhopeless⟩
  · intro hfew
    rw [length_broken_start] at hfew
    exact absurd hfew (by decide)
  · rintro ⟨n, hrecovers⟩
    exact hhopeless ⟨n, hrecovers.mayRecover⟩

end Samples

end Fleet
