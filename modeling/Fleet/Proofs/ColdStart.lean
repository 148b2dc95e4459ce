import Fleet.Proofs.Acyclic
import Fleet.Proofs.Outcome
import Fleet.Proofs.Rollout

/-!
# Starting from nothing

On an empty store a rollout is bound to bring every service up, whatever the order in
which its tasks make their requests, and nothing else is there when it is done. This takes
a project that has an order, and a health check for each service that another one waits
for, unless it wants no containers.

It is again an induction along the services. What the passes so far have made is known up
to ids (`Cold`): the containers of the services that have had their passes. For the next
service none of them counts as its own, so it plans to create all its containers, from
the number one upwards. Their names are free, since canonical names of one project tell
services and numbers apart, underscores and digits in them notwithstanding. And the gates
are open at once, because the containers of a checked service are healthy from the start.

## Main definitions

* `Container.standing`, `Service.standing`: What a service comes to, the ids left blank.
* `Service.Reports`: A service whose containers report their health.
* `Cold`: What passes on an empty store have made so far.

## Theorems

* `Pass.planFor_of_unlisted`, `Pass.wellFormed_of_unlisted`: The plan for a service that has no
  containers, and the stores that are well formed for it.
* `Cold.opens`: The gates of a service are open after everything it depends on.
* `Cold.inevitable_pass`: A pass adds what its service comes to.
* `Rollout.inevitable_cold_start`: On an empty store every service comes up.
-/

namespace Fleet

variable {ρ : Type}

/-- A service whose containers report their health: it has a check that is not turned off. -/
def Service.Reports (service : Service) : Prop :=
  ∃ check, service.healthcheck = some check ∧ check.test.head? ≠ some "NONE"

namespace Container

/-- A container without its id. -/
def blanked (c : Container) : Container := { c with id := "" }

/-- The container of a service under a number, up and running, without its id. -/
def standing (project : String) (service : Service) (number : Nat) : Container where
  id := ""
  name := containerName project service.name number
  labels := .ofInstance project service.name number service.fingerprint
  state := .running
  health := Request.firstHealth .healthy
    (.ofService project service (containerName project service.name number) number)
  networks := service.networks.map fun network => (networkName project network, [service.name])
  origin := .ofService project service (containerName project service.name number) number

theorem blanked_veiled (known : List String) (c : Container) :
    (c.veiled known).blanked = c.blanked := by
  unfold veiled
  split <;> rfl

theorem standing_healthy {service : Service} (h : service.Reports) (project : String)
    (number : Nat) : (standing project service number).health = some .healthy := by
  rcases h with ⟨check, hcheck, hon⟩
  simp only [standing, Request.firstHealth, Blueprint.ofService, hcheck, if_neg hon]

theorem risen_eq_standing {b : Brief} (hbirth : b.birth = .healthy) (number : Nat) :
    risen b number "" = standing b.project b.service number := by
  rw [standing, ← hbirth]
  rfl

end Container

/-- The containers that a service wants, up and running, without their ids: one for each number
    from one to its scale. -/
def Service.standing (project : String) (service : Service) : List Container :=
  (List.range' 1 service.desiredScale).map (.standing project service)

/-! ### A service that has no containers -/

namespace Pass

variable {pass : Pass} {s : Store}

/-- A service that has no containers gets all of them, from the number one upwards. -/
theorem planFor_of_unlisted (h : pass.listed s.containers = []) :
    pass.planFor s.containers = .ok ⟨List.range' 1 pass.service.desiredScale, [], []⟩ := by
  have hbound := desiredScale_lt_bound pass.service
  rw [planFor, h, List.map_nil]
  simp only [Plan.ofListing, List.length_nil, Nat.sub_zero, splitExcess, Nat.zero_le, if_true]
  by_cases hpos : 0 < pass.service.desiredScale
  · have hallocate : Numbering.allocate [] pass.service.desiredScale =
        .ok (List.range' 1 pass.service.desiredScale) :=
      if_pos (Or.inr (by omega))
    rw [if_pos hpos, hallocate]
    rfl
  · rw [if_neg hpos, Nat.eq_zero_of_not_pos hpos]
    rfl

theorem kept_of_unlisted (h : pass.listed s.containers = []) :
    pass.kept s.containers = [] ∧ pass.excess s.containers = [] := by
  rw [kept, excess, h]
  exact ⟨if_pos (Nat.zero_le _), if_pos (Nat.zero_le _)⟩

theorem duties_of_unlisted (h : pass.listed s.containers = []) (missing : List Nat) :
    pass.duties missing s.containers = missing.map .create := by
  rw [duties, (kept_of_unlisted h).1, (kept_of_unlisted h).2]
  simp only [List.map_nil, List.filterMap_nil, List.append_nil]

theorem untouched_of_unlisted (h : pass.listed s.containers = []) :
    pass.untouched s.containers = s.containers := by
  have houtside : pass.outside s.containers = s.containers := by
    refine List.filter_eq_self.mpr fun c hc => ?_
    have hnot := List.filter_eq_nil_iff.mp h c hc
    rw [Bool.eq_false_iff.mpr hnot]
    rfl
  rw [untouched, houtside, idle, (kept_of_unlisted h).1, List.filter_nil, List.append_nil]

theorem mem_takes_of_unlisted (h : pass.listed s.containers = []) {name : String}
    (hname : name ∈ pass.takes s) :
    ∃ number, name = containerName pass.project.name pass.service.name number := by
  rw [takes, planFor_of_unlisted h] at hname
  simp only [duties_of_unlisted h, List.mem_flatMap, List.mem_map] at hname
  rcases hname with ⟨_, ⟨number, _, rfl⟩, hname⟩
  exact ⟨number, List.mem_singleton.mp hname⟩

/-- For a service that has no containers a store is well formed if no canonical name of the service
    is in use. -/
theorem wellFormed_of_unlisted (h : pass.listed s.containers = []) (htidy : s.Tidy)
    (hfree : ∀ c ∈ s.containers, ∀ number,
      c.name ≠ containerName pass.project.name pass.service.name number) :
    pass.WellFormed (pass.takes s) s := by
  refine ⟨htidy, ?_, ?_, fun c hc hname => ?_⟩
  · rw [h]
    exact fun c hc => absurd hc List.not_mem_nil
  · rw [h]
    exact List.nodup_nil
  · rcases mem_takes_of_unlisted h hname with ⟨number, heq⟩
    exact hfree c (List.mem_filter.mp hc).1 number heq

/-- A service that has no containers comes to all of them beside what is there. -/
theorem outcome_of_unlisted (h : pass.listed s.containers = [])
    (hbirth : s.healthOnCreate = .healthy) :
    pass.outcome s = s.containers ++ pass.service.standing pass.project.name := by
  have hleft : ∀ number, (Duty.create number).left (pass.brief s) "" =
      [Container.standing pass.project.name pass.service number] := fun number =>
    congrArg ([·]) (Container.risen_eq_standing (b := pass.brief s) hbirth number)
  rw [outcome, planFor_of_unlisted h]
  simp only [untouched_of_unlisted h, duties_of_unlisted h, List.flatMap_map, hleft]
  rw [Service.standing, ← List.map_eq_flatMap]

end Pass

/-! ### Passes on an empty store -/

/-- What passes over some services have made of an empty store: the containers of these services,
    and nothing else. -/
structure Cold (H : Host ρ) (project : String) (done : List Service) (w : ρ) : Prop where
  peaceful : H.peaceful w
  clean : (H.store w).pending = fun _ => none
  birth : (H.store w).healthOnCreate = .healthy
  tidy : (H.store w).Tidy
  stock : ((H.store w).containers.map (·.blanked)).Perm (done.flatMap (·.standing project))

namespace Cold

variable {H : Host ρ} {project : Project} {done : List Service} {w : ρ}

/-- Every container belongs to a service that has had its pass. -/
theorem exists_standing (h : Cold H project.name done w) {c : Container}
    (hc : c ∈ (H.store w).containers) : ∃ service ∈ done, 0 < service.desiredScale ∧
      ∃ number, c.blanked = .standing project.name service number := by
  have hmem := h.stock.subset (List.mem_map_of_mem hc)
  rcases List.mem_flatMap.mp hmem with ⟨service, hservice, hmem⟩
  rcases List.mem_map.mp hmem with ⟨number, hnumber, heq⟩
  rw [List.mem_range'_1] at hnumber
  exact ⟨service, hservice, by omega, number, heq.symm⟩

/-- What a container that belongs to a service shows. -/
theorem accepts_iff {c : Container} {service : Service} {number : Nat}
    (h : c.blanked = .standing project.name service number) (name : String) :
    (Labels.serviceFilter project.name name).accepts c.labels = true ↔ service.name = name := by
  have hlabels : c.labels = .ofInstance project.name service.name number service.fingerprint :=
    congrArg Container.labels h
  rw [hlabels, Labels.accepts_ofInstance_iff]
  exact ⟨fun h => h.2.symm, fun heq => ⟨rfl, heq.symm⟩⟩

/-- A service that has not had its pass has no containers. -/
theorem ofService_eq_nil (h : Cold H project.name done w) {service : Service}
    (hnew : service.name ∉ done.map (·.name)) :
    ofService project service (H.store w).containers = [] := by
  refine List.filter_eq_nil_iff.mpr fun c hc haccepts => ?_
  rcases h.exists_standing hc with ⟨other, hother, _, number, heq⟩
  rw [← (accepts_iff heq service.name).mp haccepts] at hnew
  exact hnew (List.mem_map_of_mem hother)

/-- The canonical names of a service that has not had its pass are free. -/
theorem name_ne (h : Cold H project.name done w) {service : Service}
    (hnew : service.name ∉ done.map (·.name)) {c : Container}
    (hc : c ∈ (H.store w).containers) (number : Nat) :
    c.name ≠ containerName project.name service.name number := by
  intro hname
  rcases h.exists_standing hc with ⟨other, hother, _, number', heq⟩
  have hname' : c.name = containerName project.name other.name number' :=
    congrArg Container.name heq
  rw [← (containerName_eq (hname'.symm.trans hname)).1] at hnew
  exact hnew (List.mem_map_of_mem hother)

/-- The gate of a dependency is open if its containers report their health, or if it wants none. -/
theorem opens (h : Cold H project.name done w) {name : String}
    (hhealth : ∀ dependency ∈ done, dependency.name = name →
      dependency.desiredScale = 0 ∨ dependency.Reports) :
    Opens project.name name (H.store w).containers := by
  intro c hc haccepts
  rcases h.exists_standing hc with ⟨dependency, hdependency, hpos, number, heq⟩
  rcases hhealth dependency hdependency ((accepts_iff heq name).mp haccepts) with hzero | hreports
  · omega
  · exact (congrArg Container.health heq).trans
      (Container.standing_healthy hreports project.name number)

/-- A pass over a service that comes after what it waits for adds what the service comes to. -/
theorem inevitable_pass {site : Site ρ} (h : Cold H project.name done site.world)
    {service : Service} (hnew : service.name ∉ done.map (·.name))
    (hhealth : ∀ name ∈ service.healthDependencies, ∀ dependency ∈ done, dependency.name = name →
      dependency.desiredScale = 0 ∨ dependency.Reports)
    (grace : Option Nat) (marks : Marks) :
    Pass.Inevitable H.engine
      (fun result after => result = .ok () ∧ Cold H project.name (done ++ [service]) after.world)
      (.start project service grace marks) site := by
  let pass := Pass.start project service grace marks
  let s := H.store site.world
  have hunlisted : pass.listed s.containers = [] := h.ofService_eq_nil hnew
  have hplan := Pass.planFor_of_unlisted hunlisted
  have hformed : pass.WellFormed (pass.takes s) s :=
    Pass.wellFormed_of_unlisted hunlisted h.tidy fun _ hc => h.name_ne hnew hc
  have hcalm := H.calm_of_peaceful _ h.peaceful
  have hintact : Intact H.forgetful (pass.brief s) True s.containers site.world :=
    Pass.intact_of_distinct hcalm h.tidy.toDistinct (fun s hs => absurd hs List.not_mem_nil)
      fun _ => ⟨h.peaceful, h.clean⟩
  have hbound := Pass.inevitable_start project service grace marks hplan (hformed.fit hplan)
    (fun name hname => h.opens (hhealth name hname)) hintact
  refine (hbound.with_kept H.call_tidy ⟨hcalm, h.tidy⟩).imp ?_
  rintro result after ⟨hsucceeds, _, htidy⟩
  have hsound := hsucceeds.2.sound
  rcases Pass.settles_of_succeeds (H := H.forgetful) hplan hformed hsucceeds htidy with
    ⟨hok, hsettles⟩
  refine ⟨hok, (hsound.peace trivial).1, (hsound.peace trivial).2, hsound.birth.trans h.birth,
    htidy, ?_⟩
  -- The ids of old containers are blanked as well, after those of the new ones.
  have hsame := hsettles.same.map (·.blanked)
  rw [Pass.outcome_of_unlisted hunlisted h.birth, List.map_map, List.map_append] at hsame
  have hveiled : (Container.blanked ∘ (·.veiled (s.containers.map (·.id)))) =
      Container.blanked := funext fun c => c.blanked_veiled _
  have hstanding : (service.standing project.name).map (·.blanked) =
      service.standing project.name := by
    rw [Service.standing, List.map_map]
    rfl
  rw [hveiled] at hsame
  rw [List.flatMap_append, List.flatMap_singleton]
  exact hsame.trans (h.stock.append (List.Perm.of_eq hstanding))

end Cold

/-! ### Rollouts on an empty store -/

namespace Rollout

variable {H : Host ρ} {project : Project}

/-- The rest of a rollout adds what the services come to that have not had their passes. -/
theorem inevitable_rest {done rest : List Service} {site : Site ρ}
    (horders : project.Orders (done ++ rest))
    (hhealth : ∀ service ∈ project.services, ∀ dependency ∈ project.services,
      dependency.name ∈ service.healthDependencies →
      dependency.desiredScale = 0 ∨ dependency.Reports)
    (h : Cold H project.name done site.world) (grace : Option Nat) (marks : Marks) :
    Inevitable H.engine
      (fun result after => result = .ok () ∧ Cold H project.name (done ++ rest) after.world)
      (proceed project grace marks rest) site := by
  induction rest generalizing done site marks with
  | nil =>
      rw [List.append_nil]
      exact .ended _ ⟨rfl, h⟩
  | cons service rest ih =>
      have hmem : ∀ other ∈ done ++ service :: rest, other ∈ project.services :=
        fun _ hother => horders.perm.subset hother
      have hnew : service.name ∉ done.map (·.name) := by
        have hnodup := horders.distinct
        rw [List.map_append, List.map_cons] at hnodup
        exact fun hdone => List.disjoint_of_nodup_append hnodup hdone List.mem_cons_self
      have hopen : ∀ name ∈ service.healthDependencies, ∀ dependency ∈ done,
          dependency.name = name → dependency.desiredScale = 0 ∨ dependency.Reports := by
        rintro _ hname dependency hdependency rfl
        exact hhealth service (hmem _ (List.mem_append_right _ List.mem_cons_self)) dependency
          (hmem _ (List.mem_append_left _ hdependency)) hname
      refine inevitable_passing (h.inevitable_pass hnew hopen grace marks)
        (fun _ _ hafter => hafter.1) fun after hafter => ?_
      rw [List.append_cons] at horders ⊢
      refine ih horders ?_ _
      exact hafter.2

/-- On an empty store on which checks begin healthy and that gives out no id twice, with no failure
    in store and nothing to happen beside it, a rollout is bound to succeed if the project has an
    order and each service that another one waits for has a check that is on, or wants no containers. Every service then has
    its containers, one for each number from one to its scale, and nothing else is there. -/
theorem inevitable_cold_start (H : Host ρ) (project : Project) (grace : Option Nat)
    (site : Site ρ) (hordered : ¬project.Disordered)
    (hhealth : ∀ service ∈ project.services, ∀ dependency ∈ project.services,
      dependency.name ∈ service.healthDependencies →
      dependency.desiredScale = 0 ∨ dependency.Reports)
    (hpeaceful : H.peaceful site.world) (hempty : (H.store site.world).containers = [])
    (hsupply : (H.store site.world).supply.Distinct)
    (hbirth : (H.store site.world).healthOnCreate = .healthy)
    (hpending : (H.store site.world).pending = fun _ => none) :
    Inevitable H.engine
      (fun result after => result = .ok () ∧
        ((H.store after.world).containers.map (·.id)).Nodup ∧
        ((H.store after.world).containers.map (·.blanked)).Perm
          (project.services.flatMap (·.standing project.name)))
      (start project grace) site := by
  rcases Project.exists_order hordered with ⟨order, horder⟩
  have horders := Project.orders_of_ok horder
  have htidy : (H.store site.world).Tidy := by
    refine ⟨⟨?_, ?_, hsupply⟩, ?_⟩
    · rw [hempty]
      exact List.nodup_nil
    · rw [hempty]
      exact fun _ _ c hc => absurd hc List.not_mem_nil
    · rw [hempty]
      exact List.nodup_nil
  have hcold : Cold H project.name [] site.world :=
    ⟨hpeaceful, hpending, hbirth, htidy, by rw [hempty]; exact .nil⟩
  have hall : project.Orders ([] ++ order) := horders
  rw [start, horder]
  refine (inevitable_rest hall hhealth hcold grace .none).imp ?_
  rintro result after ⟨hok, hafter⟩
  exact ⟨hok, hafter.tidy.nodup, hafter.stock.trans (horders.perm.flatMap_right _)⟩

end Rollout

/-- The first service of the small drill with a health check, and two containers wanted. -/
def Sample.checked : Service :=
  { Sample.service with healthcheck := some ⟨["CMD", "true"], none, none, none⟩, scale := 2 }

/-- A service that waits until the first one is healthy. -/
def Sample.patient : Service :=
  { Sample.front with dependsOn := Dict.ofList [("web", .healthy)], networks := ["edge", "core"] }

/-- On an empty store a service with a health check and one that waits for it come up. -/
theorem Rollout.inevitable_cold_start_sample :
    let project : Project := ⟨"demo", [Sample.patient, Sample.checked]⟩
    ¬project.Disordered ∧
    Inevitable Drill.host.engine
      (fun result after => result = .ok () ∧ (after.world.store.containers.map (·.id)).Nodup ∧
        (after.world.store.containers.map (·.blanked)).Perm
          [.standing "demo" Sample.patient 1, .standing "demo" Sample.checked 1,
            .standing "demo" Sample.checked 2])
      (start project none) ⟨.fresh 1, .fresh, false⟩ := by
  intro project
  have hok : project.inDependencyOrder.isOk = true := by decide +kernel
  have hordered : ¬project.Disordered := by
    rcases horder : project.inDependencyOrder with cause | order
    · rw [horder] at hok
      cases hok
    · exact (Project.orders_of_ok horder).not_disordered
  refine ⟨hordered, inevitable_cold_start Drill.host project none ⟨.fresh 1, .fresh, false⟩
    hordered ?_ ⟨rfl, rfl⟩ rfl freshId_injective rfl rfl⟩
  intro service hservice dependency hdependency hname
  rcases List.mem_pair.mp hdependency with rfl | rfl
  · -- Nobody waits for the service that waits.
    rcases List.mem_pair.mp hservice with rfl | rfl <;> exact absurd hname (by decide)
  · exact Or.inr ⟨_, rfl, by decide⟩

end Fleet
