import Fleet.Proofs.Assignment
import Fleet.Proofs.Pass
import Fleet.Proofs.Tidy

/-!
# A small drill

A service that wants one container, and a store that holds one of its containers,
created from another description. A pass replaces it. The general theorems are tried
on this drill, some with a failure laid in store and some without.

Theorems about rollouts are tried on a project with a second service, which depends on
the first one and has a container that is up to date.

One container leaves little to choose from. What has to hold under every order of moves,
and of any number of containers, is tried on a crew: three containers of the service, in
three conditions and with a gap in their numbers, one of another service among them, and
tasks that take turns request by request. A greater scale makes it grow, a smaller one
shrink.

## Main definitions

* `Sample.drill`, `Sample.faulty`: The drill, without a failure and with one.
* `Sample.pass`: A pass over the service.
* `Sample.tiers`, `Sample.tiersSite`: The project of two services, and a site for it.
* `Sample.crewSite`: The site with several containers.
* `Sample.scaling`, `Sample.scaled`: A pass at some scale, and after moves out of order.

## Theorems

* `Sample.tidy`, `Sample.distinct_tiers`, `Sample.tidy_crew`: The ids are distinct.
-/

namespace Fleet.Sample

/-- A project. -/
def project : Project := ⟨"demo", []⟩

/-- A service that wants one container. -/
def service : Service := .plain "web" "app:1"

/-- A container of the service, from before its description was changed. -/
def container : Container where
  id := "0123456789abcdef"
  name := "demo_web_1"
  labels := Dict.ofList
    [(Labels.projectKey, "demo"), (Labels.serviceKey, "web"), (Labels.numberKey, "1")]
  state := .running
  health := none
  networks := []
  origin := .blank

/-- A drill on a store that holds the container. -/
def drill : Drill := ⟨Store.empty.seed container, false, 0, []⟩

/-- The drill with a failure laid in store for the start of the new container. -/
def faulty : Drill := { drill with store := drill.store.failNext .start "no such network" }

/-- A site with the drill. -/
def site : Site Drill := ⟨drill, .fresh, false⟩

/-- A pass over the service. -/
def pass : Pass := .start project service none .none

/-- A service that depends on the first one. -/
def front : Service :=
  { Service.plain "front" "proxy:1" with dependsOn := Dict.ofList [("web", .started)] }

/-- A project of both services, the one that depends on the other declared first. -/
def tiers : Project := ⟨"demo", [front, service]⟩

/-- A container of the second service, with its present description. -/
def fronting : Container where
  id := "1032547698badcfe"
  name := "demo_front_1"
  labels := .ofInstance "demo" "front" 1 front.fingerprint
  state := .running
  health := none
  networks := []
  origin := .blank

/-- A site with a container of either service. -/
def tiersSite : Site Drill := ⟨⟨(Store.empty.seed fronting).seed container, false, 0, []⟩, .fresh,
  false⟩

/-- A container of the first service with its present description, which has come to its end. -/
def idle : Container where
  id := "13579bdf02468ace"
  name := "demo_web_2"
  labels := .ofInstance "demo" "web" 2 service.fingerprint
  state := .exited
  health := none
  networks := []
  origin := .blank

/-- A container of the first service from before its description was changed, its number beyond
    a gap. -/
def last : Container where
  id := "fedcba9876543210"
  name := "demo_web_5"
  labels := Dict.ofList
    [(Labels.projectKey, "demo"), (Labels.serviceKey, "web"), (Labels.numberKey, "5")]
  state := .running
  health := none
  networks := []
  origin := .blank

/-- A site with three containers of the first service, where every task gives up a turn before
    each of its requests. -/
def crewSite : Site Drill :=
  ⟨⟨(((Store.empty.seed container).seed fronting).seed last).seed idle, false, 1, []⟩, .fresh,
    false⟩

/-- The first service at some scale. -/
def manned (scale : UInt32) : Service := { service with scale }

/-- A pass over the first service at some scale. -/
def scaling (scale : UInt32) : Pass := .start project (manned scale) none .none

/-- Moves that give tasks their turns out of order. -/
def shuffled : List Move := (List.replicate 10 [.poll 2, .poll 0, .poll 1]).flatten

/-- The pass at some scale after those moves, on the site with three containers. -/
def scaled (scale : UInt32) : Pass × Site Drill :=
  Pass.play Drill.host.engine shuffled (scaling scale) crewSite

/-- What there is to do at a scale of two. -/
def shrinking : Plan := ⟨[], [last.summary], [container.summary, idle.summary]⟩

/-- Every id that an empty store gives out begins with a letter. -/
theorem unused {id : String} (hid : id.toList.head? ≠ some 'n') {supply : Supply}
    (hnumbers : supply.nth = Store.freshId) : ¬supply.Comes id := by
  rintro ⟨n, _, rfl⟩
  have hnew : "new".toList = ['n', 'e', 'w'] := rfl
  rw [hnumbers, freshId_toList, hnew, List.append_assoc, List.append_assoc,
    List.cons_append, List.head?_cons] at hid
  exact hid rfl

/-- A store that holds the container alone, and numbers the ids it gives out, has distinct ids and
    names. -/
theorem tidy {s : Store} (h : s.containers = [container])
    (hnumbers : s.supply.nth = Store.freshId) : s.Tidy := by
  refine ⟨⟨?_, ?_, ?_⟩, ?_⟩
  · rw [h]
    exact List.nodup_singleton _
  · rintro id hcomes c hc rfl
    rw [h, List.mem_singleton] at hc
    rw [hc] at hcomes
    exact unused (by decide) hnumbers hcomes
  · rw [Supply.Distinct, hnumbers]
    exact freshId_injective
  · rw [h]
    exact List.nodup_singleton _

/-- The ids of the two containers are distinct. -/
theorem distinct_tiers : tiersSite.world.store.Distinct := by
  refine ⟨by decide, ?_, freshId_injective⟩
  rintro id hcomes c hc rfl
  rcases List.mem_pair.mp hc with rfl | rfl
  · exact unused (by decide) rfl hcomes
  · exact unused (by decide) rfl hcomes

/-- The ids and names of the crew are distinct. -/
theorem tidy_crew : crewSite.world.store.Tidy := by
  refine ⟨⟨by decide, ?_, freshId_injective⟩, by decide⟩
  intro id hcomes
  have hold : ∀ c ∈ crewSite.world.store.containers, c.id.toList.head? ≠ some 'n' := by decide
  rintro c hc rfl
  exact unused (hold c hc) rfl hcomes

theorem listed_crew (scale : UInt32) :
    (scaling scale).listed crewSite.world.store.containers = [container, last, idle] := rfl

theorem outside_crew (scale : UInt32) :
    (scaling scale).outside crewSite.world.store.containers = [fronting] := rfl

/-- The crew by number. Sorting does not come to a value by computation alone. -/
theorem inOrder_crew : Plan.inOrder [container, last, idle] = [container, idle, last] := by
  have hone : container.number = 1 := rfl
  have htwo : idle.number = 2 := rfl
  have hfive : last.number = 5 := rfl
  simp [Plan.inOrder, List.mergeSort, List.MergeSort.Internal.splitInTwo, hone, htwo, hfive]

theorem planFor_crew : (scaling 2).planFor crewSite.world.store.containers = .ok shrinking := by
  have hsplit : splitExcess ([container, last, idle].map (·.summary)) 2 =
      .ok (shrinking.kept, shrinking.excess) := by
    rw [splitExcess_eq, Plan.byNumber_summaries, inOrder_crew]
    rfl
  have hscale : (scaling 2).service.desiredScale = 2 := rfl
  rw [Pass.planFor, listed_crew, hscale, Plan.ofListing, hsplit]
  rfl

/-- A result that is no error. -/
theorem eq_ok_of_isOk {result : Option (Except Error Unit)} (h : result.any (·.isOk) = true) :
    result = some (.ok ()) := by
  rcases result with _ | _ | _
  · cases h
  · cases h
  · rfl

end Fleet.Sample
