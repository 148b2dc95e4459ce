import Fleet.Proofs.Misnumbered
import Fleet.Proofs.Solo

/-!
# Containers without a health check

A container without a health check never reports that it is healthy, so a gate that waits
for it should fail. A poll does not look for such containers, though. It asks for one
container after the other and ends with the first that is not healthy: with an error if that
one has no check, and with a poll that has not passed if it is starting or unhealthy, whatever
comes behind it (`Poll.scan`). Which of the two it is depends on the order of the listing.

A gate takes a poll that has not passed for a reason to poll again. If nothing happens
meanwhile the next poll comes to the same, so the gate never has a result, although one of
its containers can never report. This is no matter of turns, and shown for every number of
them by following the gate from one poll to the next (`Gate.runAlone_eq_none`).

## Main definitions

* `asked`: The containers that a poll asks for.
* `Stops`: The first container that is not healthy has a certain health status.
* `Poll.scan`: What a poll makes of containers.

## Theorems

* `Poll.ending`: What a poll comes to.
* `Gate.ending_of_poll`, `Gate.runAlone_eq_none`: What a gate comes to, and when to nothing.
* `missing_check_reported_iff`: When a missing health check is reported.
-/

namespace Fleet

/-- The containers that a poll of a dependency asks for, in the order of the listing. It asks by
    ids, and the first container with an id is the one that answers. -/
def asked (project dependency : String) (cs : List Container) : List Container :=
  ((dependencyOf project dependency cs).map (·.id)).filterMap fun id => cs.find? (·.id = id)

/-- The first of the containers that is not healthy has a certain health status. -/
def Stops (cs : List Container) (health : Option Health) : Prop :=
  ∃ before c after, cs = before ++ c :: after ∧ (∀ b ∈ before, b.health = some .healthy) ∧
    c.health = health

/-- With distinct ids the containers of the dependency themselves are asked for. -/
theorem asked_of_nodup {project dependency : String} {cs : List Container}
    (hnodup : (ids cs).Nodup) : asked project dependency cs =
      cs.filter fun c => (Labels.serviceFilter project dependency).accepts c.labels := by
  have hfind : ∀ c ∈ cs, cs.find? (·.id = c.id) = some c := fun c hc => by
    rcases Multiset.exists_cons_of_mem (Multiset.mem_coe.mpr hc) with ⟨rest, hrest⟩
    exact find?_of_coe_eq_cons hrest hnodup
  rw [asked, dependencyOf, List.map_map, List.filterMap_map]
  exact (List.filterMap_congr fun c hc => hfind c (List.mem_filter.mp hc).1).trans
    List.filterMap_some

variable {ρ : Type}

namespace Poll

/-- What a poll makes of containers, in the order in which it asks for them. -/
def scan (dependency : String) : List Container → Except Error Bool
  | [] => .ok true
  | c :: rest => if c.health = some .healthy then scan dependency rest
      else verdict dependency c.health

theorem scan_of_healthy (dependency : String) {cs : List Container}
    (h : ∀ c ∈ cs, c.health = some .healthy) : scan dependency cs = .ok true := by
  induction cs with
  | nil => rfl
  | cons c rest ih =>
      rcases List.forall_mem_cons.mp h with ⟨hc, hrest⟩
      rw [scan, if_pos hc]
      exact ih hrest

theorem scan_of_stops (dependency : String) {cs : List Container} {health : Option Health}
    (h : Stops cs health) (hamiss : health ≠ some .healthy) :
    scan dependency cs = verdict dependency health := by
  rcases h with ⟨before, c, after, rfl, hbefore, rfl⟩
  induction before with
  | nil => rw [List.nil_append, scan, if_neg hamiss]
  | cons b rest ih =>
      rcases List.forall_mem_cons.mp hbefore with ⟨hb, hrest⟩
      rw [List.cons_append, scan, if_pos hb]
      exact ih hrest

/-- All containers are healthy, or there is a first that is not. -/
theorem healthy_or_stops (cs : List Container) : (∀ c ∈ cs, c.health = some .healthy) ∨
    ∃ health, health ≠ some .healthy ∧ Stops cs health := by
  induction cs with
  | nil => exact Or.inl fun _ hc => absurd hc List.not_mem_nil
  | cons c rest ih =>
      by_cases hc : c.health = some .healthy
      · rcases ih with hrest | ⟨health, hamiss, before, d, after, rfl, hbefore, hd⟩
        · exact Or.inl (List.forall_mem_cons.mpr ⟨hc, hrest⟩)
        · exact Or.inr ⟨health, hamiss, c :: before, d, after, rfl,
            List.forall_mem_cons.mpr ⟨hc, hbefore⟩, hd⟩
      · exact Or.inr ⟨c.health, hc, [], c, rest, rfl, fun _ hb => absurd hb List.not_mem_nil, rfl⟩

/-- A poll comes to one of three things, each for a reason of its own. -/
theorem scan_iff (dependency : String) (cs : List Container) :
    (scan dependency cs = .ok true ↔ ∀ c ∈ cs, c.health = some .healthy) ∧
    (scan dependency cs = .error (.noHealthcheck dependency) ↔ Stops cs none) ∧
    (scan dependency cs = .ok false ↔ Stops cs (some .starting) ∨ Stops cs (some .unhealthy)) := by
  have hnone : Stops cs none → scan dependency cs = .error (.noHealthcheck dependency) :=
    fun h => scan_of_stops dependency h nofun
  have hstarting : Stops cs (some .starting) → scan dependency cs = .ok false :=
    fun h => scan_of_stops dependency h nofun
  have hunhealthy : Stops cs (some .unhealthy) → scan dependency cs = .ok false :=
    fun h => scan_of_stops dependency h nofun
  rcases healthy_or_stops cs with hall | ⟨health, hamiss, hstops⟩
  · have hscan := scan_of_healthy dependency hall
    refine ⟨iff_of_true hscan hall, iff_of_false ?_ ?_, iff_of_false ?_ ?_⟩ <;> grind
  · have hnot : ¬∀ c ∈ cs, c.health = some .healthy := fun hall => by
      rcases hstops with ⟨before, c, after, rfl, _, rfl⟩
      exact hamiss (hall c (List.mem_append_right _ List.mem_cons_self))
    have hscan := scan_of_stops dependency hstops hamiss
    rcases health with _ | _ | _ | _ <;> grind [verdict]

/-! ### What a poll comes to -/

variable {E : Engine ρ} {cs : List Container} {P : ρ → Prop} {project dependency : String} {w : ρ}

/-- What a poll does with the answer to an inspection. -/
def afterInspection (E : Engine ρ) (dependency : String) (rest : List String) :
    Except RuntimeError Details → ρ → Turn Poll (Except Error Bool) × ρ
  | .error cause, w => (.finished (.error (.runtime cause)), w)
  | .ok details, w =>
    match verdict dependency details.health, rest with
    | .ok true, next :: rest => inspectAll E dependency next .due rest w
    | verdict, _ => (.finished verdict, w)

/-- What a poll does with the answer to a listing. -/
def afterListing (E : Engine ρ) (dependency : String) :
    Except RuntimeError (List Summary) → ρ → Turn Poll (Except Error Bool) × ρ
  | .error cause, w => (.finished (.error (.runtime cause)), w)
  | .ok containers, w => goOn E dependency (containers.map (·.id)) w

theorem resume_inspecting (E : Engine ρ) (project dependency id : String) (rest : List String)
    (errand : Errand Details) (w : ρ) :
    resume E project dependency (inspecting id errand rest) w =
      requesting E (.inspect id) (inspecting id · rest) (afterInspection E dependency rest)
        errand w := by
  rw [resume, inspectAll, requesting]
  rcases Errand.resume E (.inspect id) errand w with ⟨turn, w'⟩
  cases turn with
  | finished answer => cases answer <;> rfl
  | _ => rfl

theorem resume_listing (E : Engine ρ) (project dependency : String)
    (errand : Errand (List Summary)) (w : ρ) :
    resume E project dependency (listing errand) w =
      requesting E (.list (Labels.serviceFilter project dependency)) listing
        (afterListing E dependency) errand w := by
  simp only [resume, requesting]
  rcases Errand.resume E (.list (Labels.serviceFilter project dependency)) errand w with ⟨turn, w'⟩
  cases turn with
  | finished answer =>
      cases answer with
      | error cause => rfl
      | ok containers =>
          simp only [afterListing]
          cases containers.map (·.id) <;> rfl
  | _ => rfl

theorem afterInspection_of_healthy (E : Engine ρ) (dependency : String) (rest : List String)
    {details : Details} (hhealth : details.health = some .healthy) (w : ρ) :
    afterInspection E dependency rest (.ok details) w = goOn E dependency rest w := by
  simp only [afterInspection, hhealth, verdict]
  cases rest <;> rfl

theorem afterInspection_of_amiss (E : Engine ρ) (dependency : String) (rest : List String)
    {details : Details} (hhealth : details.health ≠ some .healthy) (w : ρ) :
    afterInspection E dependency rest (.ok details) w =
      (.finished (verdict dependency details.health), w) := by
  rw [afterInspection]
  exact fun _ _ hverdict _ => hhealth (verdict_eq_true hverdict)

/-- The inspections that are left come to what the poll makes of the containers. -/
theorem ahead_goOn (hP : Fleet.Sees E cs P) {rest : List String}
    (hfind : ∀ id ∈ rest, ∃ c, cs.find? (·.id = id) = some c) (h : P w) :
    Ahead (resume E project dependency) wake
      (fun result after => result = scan dependency (rest.filterMap fun id =>
        cs.find? (·.id = id)) ∧ P after) (goOn E dependency rest w) := by
  induction rest generalizing w with
  | nil => exact ⟨rfl, h⟩
  | cons id rest ih =>
      rcases List.forall_mem_cons.mp hfind with ⟨⟨c, hc⟩, hrest⟩
      refine ending_iff_ahead.mp (ending_of_request (q := .inspect id) (inspecting id · rest)
        (resume_inspecting E project dependency id rest) (fun _ => rfl) ?_)
      have hkept := hP.kept (.inspect id) w rfl h
      rw [hP.inspects w id c h hc, List.filterMap_cons, hc]
      by_cases hhealth : c.health = some .healthy
      · rw [afterInspection_of_healthy E dependency rest hhealth]
        simp only [scan, hhealth, if_true]
        exact ih hrest hkept
      · rw [afterInspection_of_amiss E dependency rest hhealth]
        simp only [scan, hhealth, if_false]
        exact ⟨rfl, hkept⟩

/-- A poll comes to what it makes of the containers that it asks for. -/
theorem ending (hP : Fleet.Sees E cs P) (h : P w) :
    Ending (resume E project dependency) wake
      (fun result after => result = scan dependency (asked project dependency cs) ∧ P after)
      fresh w := by
  refine ending_of_request (q := .list (Labels.serviceFilter project dependency)) listing
    (resume_listing E project dependency) (fun _ => rfl) ?_
  rw [hP.lists w _ h]
  refine ahead_goOn hP (fun id hid => ?_) (hP.kept _ w rfl h)
  rcases List.mem_map.mp hid with ⟨summary, hsummary, rfl⟩
  rcases List.mem_map.mp hsummary with ⟨c, hc, rfl⟩
  have hsome : (cs.find? (·.id = c.id)).isSome = true :=
    List.find?_isSome.mpr ⟨c, (List.mem_filter.mp hc).1, decide_eq_true rfl⟩
  exact Option.isSome_iff_exists.mp hsome

end Poll

/-! ### What a gate comes to -/

namespace Gate

variable {E : Engine ρ} {P : ρ → Prop} {project dependency : String} {poll : Poll} {w : ρ}
  {answer : Except Error Bool}

/-- A gate whose poll fails or passes comes to the same. -/
theorem ending_of_poll
    (h : Ending (Poll.resume E project dependency) Poll.wake
      (fun result after => result = answer ∧ P after) poll w) (hanswer : answer ≠ .ok false) :
    Ending (resume E project dependency) wake
      (fun result _ => result = answer.map fun _ => ()) (polling poll) ⟨false, w⟩ := by
  induction h with
  | @finished poll w result after heq hnow =>
      rcases hnow with ⟨rfl, _⟩
      refine ending_iff_ahead.mpr ?_
      rw [resume, pollOn, heq]
      rcases result with _ | _ | _
      · exact rfl
      · exact absurd rfl hanswer
      · exact rfl
  | @yielded poll next w after heq _ ih =>
      have hturn : resume E project dependency (polling poll) ⟨false, w⟩ =
          (.yielded (polling next), ⟨false, after⟩) := by
        rw [resume, pollOn, heq]
      exact .yielded hturn ih
  | @asleep poll next w after heq _ ih =>
      have hturn : resume E project dependency (polling poll) ⟨false, w⟩ =
          (.asleep (polling next), ⟨false, after⟩) := by
        rw [resume, pollOn, heq]
      exact .asleep hturn ih

/-- A gate whose poll fails fails with it, in the same turn. -/
theorem runAlone_of_poll {turns : Nat} {error : Error} {after : ρ}
    (h : runAlone (Poll.resume E project dependency) Poll.wake turns poll w =
      some (.error error, after)) :
    runAlone (resume E project dependency) wake turns (polling poll) ⟨false, w⟩ =
      some (.error error, ⟨false, after⟩) := by
  induction turns generalizing poll w with
  | zero => cases h
  | succ turns ih =>
      rcases heq : Poll.resume E project dependency poll w with ⟨turn, w'⟩
      rw [runAlone, heq] at h
      rw [runAlone, resume, pollOn, heq]
      cases turn with
      | yielded next => exact ih h
      | asleep next => exact ih h
      | finished result =>
          cases h
          rfl

/-- A gate all of whose polls come to nothing has no result, whatever the number of turns. -/
theorem runAlone_eq_none
    (hpoll : ∀ w, P w → Ending (Poll.resume E project dependency) Poll.wake
      (fun result after => result = .ok false ∧ P after) .fresh w)
    (hgoing : ∀ w, P w → E.cancelled w = false) (turns : Nat)
    (h : Ending (Poll.resume E project dependency) Poll.wake
      (fun result after => result = .ok false ∧ P after) poll w) :
    runAlone (resume E project dependency) wake turns (polling poll) ⟨false, w⟩ = none := by
  induction turns generalizing poll w with
  | zero => rfl
  | succ turns ih =>
      cases h with
      | @finished _ _ result after heq hnow =>
          rcases hnow with ⟨rfl, hafter⟩
          have hrests : resume E project dependency (polling poll) ⟨false, w⟩ =
              (.asleep (resting false), ⟨false, after⟩) := by
            simp only [resume, pollOn, heq, hgoing after hafter, Bool.or_self, if_neg,
              Bool.false_eq_true, not_false_eq_true]
          rw [runAlone, hrests]
          -- After the delay the gate polls again.
          have hagain : runAlone (resume E project dependency) wake turns (resting true)
              ⟨false, after⟩ = runAlone (resume E project dependency) wake turns (polling .fresh)
              ⟨false, after⟩ := by
            cases turns <;> rfl
          exact hagain.trans (ih (hpoll after hafter))
      | @yielded _ next _ after heq hnext =>
          have hyields : resume E project dependency (polling poll) ⟨false, w⟩ =
              (.yielded (polling next), ⟨false, after⟩) := by rw [resume, pollOn, heq]
          rw [runAlone, hyields]
          exact ih hnext
      | @asleep _ next _ after heq hnext =>
          have hsleeps : resume E project dependency (polling poll) ⟨false, w⟩ =
              (.asleep (polling next), ⟨false, after⟩) := by rw [resume, pollOn, heq]
          rw [runAlone, hsleeps]
          exact ih hnext

end Gate

section Alone

variable {H : Host ρ} {w : ρ}

/-- Where nothing happens a poll comes to what it makes of the containers, and to nothing else. -/
theorem Poll.endsWith_iff (hstill : Still H w w) (project dependency : String)
    (result : Except Error Bool) :
    EndsWith (resume H.engine project dependency) wake fresh w result ↔
      scan dependency (asked project dependency (H.store w).containers) = result := by
  have hends : EndsWith (resume H.engine project dependency) wake fresh w
      (scan dependency (asked project dependency (H.store w).containers)) :=
    (ending (still_sees H w) hstill).endsWith fun _ _ h => h.1
  exact ⟨hends.unique, fun h => h ▸ hends⟩

/-- A gate whose poll fails or passes comes to the same, and to nothing else. -/
theorem Gate.endsWith_iff (hstill : Still H w w) {project dependency : String}
    {answer : Except Error Bool}
    (hscan : Poll.scan dependency (asked project dependency (H.store w).containers) = answer)
    (hanswer : answer ≠ .ok false) (result : Except Error Unit) :
    EndsWith (resume H.engine project dependency) wake fresh ⟨false, w⟩ result ↔
      answer.map (fun _ => ()) = result := by
  have hends : EndsWith (resume H.engine project dependency) wake fresh ⟨false, w⟩
      (answer.map fun _ => ()) := by
    rw [← hscan] at hanswer ⊢
    exact (ending_of_poll (Poll.ending (still_sees H w) hstill) hanswer).endsWith fun _ _ h => h
  exact ⟨hends.unique, fun h => h ▸ hends⟩

/-- A gate whose poll does not pass has no result as long as nothing happens. -/
theorem Gate.never_of_scan (hstill : Still H w w) {project dependency : String}
    (hscan : Poll.scan dependency (asked project dependency (H.store w).containers) = .ok false)
    (turns : Nat) :
    runAlone (resume H.engine project dependency) wake turns fresh ⟨false, w⟩ = none := by
  have hpoll : ∀ w', Still H w w' → Ending (Poll.resume H.engine project dependency) Poll.wake
      (fun result after => result = .ok false ∧ Still H w after) .fresh w' := by
    rw [← hscan]
    exact fun w' h => Poll.ending (still_sees H w) h
  exact runAlone_eq_none hpoll (still_sees H w).going turns (hpoll w hstill)

end Alone

/-- A missing health check is reported, by a poll and by a gate, if and only if the first container
    that is not healthy has none, and the gate reports it with its first poll, in the turn in which
    the poll does. If all are healthy the gate opens, and if the first that is not healthy is starting
    or unhealthy, the poll does not pass and the gate has no result. -/
theorem missing_check_reported_iff (H : Host ρ) (project dependency : String) (w : ρ)
    (hpeaceful : H.peaceful w) (hclean : (H.store w).pending = fun _ => none) :
    let cs := asked project dependency (H.store w).containers
    let poll := EndsWith (Poll.resume H.engine project dependency) Poll.wake .fresh w
    let gate := EndsWith (Gate.resume H.engine project dependency) Gate.wake .fresh ⟨false, w⟩
    ((poll (.error (.noHealthcheck dependency)) ↔ Stops cs none) ∧
      (poll (.ok true) ↔ ∀ c ∈ cs, c.health = some .healthy) ∧
      (poll (.ok false) ↔ Stops cs (some .starting) ∨ Stops cs (some .unhealthy))) ∧
    ((gate (.error (.noHealthcheck dependency)) ↔ Stops cs none) ∧
      (gate (.ok ()) ↔ ∀ c ∈ cs, c.health = some .healthy) ∧
      ((∀ turns, runAlone (Gate.resume H.engine project dependency) Gate.wake turns .fresh
        ⟨false, w⟩ = none) ↔ Stops cs (some .starting) ∨ Stops cs (some .unhealthy))) ∧
    (∀ turns after, runAlone (Poll.resume H.engine project dependency) Poll.wake turns .fresh w =
        some (.error (.noHealthcheck dependency), after) →
      runAlone (Gate.resume H.engine project dependency) Gate.wake turns .fresh ⟨false, w⟩ =
        some (.error (.noHealthcheck dependency), ⟨false, after⟩)) ∧
    ((ids (H.store w).containers).Nodup → cs = (H.store w).containers.filter fun c =>
      (Labels.serviceFilter project dependency).accepts c.labels) := by
  intro cs poll gate
  have hstill : Still H w w := ⟨hpeaceful, hclean, rfl, rfl⟩
  have hpoll := Poll.endsWith_iff hstill project dependency
  rcases Poll.scan_iff dependency cs with ⟨htrue, herror, hfalse⟩
  refine ⟨⟨(hpoll _).trans herror, (hpoll _).trans htrue, (hpoll _).trans hfalse⟩, ?_,
    fun _ _ => Gate.runAlone_of_poll, asked_of_nodup⟩
  rw [← htrue, ← herror, ← hfalse]
  cases hscan : Poll.scan dependency cs with
  | error error =>
      have hgate : ∀ result, gate result ↔ .error error = result :=
        Gate.endsWith_iff hstill hscan nofun
      refine ⟨(hgate _).trans ?_, iff_of_false (fun h => nomatch (hgate _).mp h) nofun,
        iff_of_false ((hgate _).mpr rfl).exists_some nofun⟩
      rw [Except.error.injEq, Except.error.injEq]
  | ok passed =>
      cases passed with
      | false =>
          have hnever := Gate.never_of_scan hstill hscan
          exact ⟨iff_of_false (fun h => h.exists_some hnever) nofun,
            iff_of_false (fun h => h.exists_some hnever) nofun, iff_of_true hnever rfl⟩
      | true =>
          have hgate : ∀ result, gate result ↔ .ok () = result :=
            Gate.endsWith_iff hstill hscan nofun
          exact ⟨iff_of_false (fun h => nomatch (hgate _).mp h) nofun,
            iff_of_true ((hgate _).mpr rfl) rfl,
            iff_of_false ((hgate _).mpr rfl).exists_some nofun⟩

/-! ### A container without a health check -/

namespace Sample

/-- A container that is still starting. -/
def starting : Container where
  id := "2143658709badcfe"
  name := "demo_db_1"
  labels := Dict.ofList
    [(Labels.projectKey, "demo"), (Labels.serviceKey, "db"), (Labels.numberKey, "1")]
  state := .running
  health := some .starting
  networks := []
  origin := .blank

/-- A container of the same service without a health check. -/
def unchecked : Container :=
  { starting with
    id := "3254769810cbedaf"
    name := "demo_db_2"
    labels := Dict.ofList
      [(Labels.projectKey, "demo"), (Labels.serviceKey, "db"), (Labels.numberKey, "2")]
    health := none }

/-- A drill on both, the first one with a health of its own. -/
def halfChecked (health : Health) : Drill :=
  ⟨(Store.empty.seed { starting with health := some health }).seed unchecked, false, 0, []⟩

theorem asked_halfChecked (health : Health) :
    asked "demo" "db" (halfChecked health).store.containers =
      [{ starting with health := some health }, unchecked] := by
  cases health <;> decide

end Sample

section Samples

open Sample

/-- Behind a container that is healthy the missing health check is reported, by a gate in its first
    turn if the answers are there at once. -/
theorem missing_check_reported_sample :
    Drill.host.peaceful (halfChecked .healthy) ∧
    ((halfChecked .healthy).store.pending = fun _ => none) ∧
    EndsWith (Poll.resume Drill.engine "demo" "db") Poll.wake .fresh (halfChecked .healthy)
      (.error (.noHealthcheck "db")) ∧
    EndsWith (Gate.resume Drill.engine "demo" "db") Gate.wake .fresh ⟨false, halfChecked .healthy⟩
      (.error (.noHealthcheck "db")) ∧
    ∃ after, runAlone (Gate.resume Drill.engine "demo" "db") Gate.wake 1 .fresh
      ⟨false, halfChecked .healthy⟩ = some (.error (.noHealthcheck "db"), after) := by
  have hstops : Stops (asked "demo" "db" (halfChecked .healthy).store.containers) none :=
    ⟨[{ starting with health := some .healthy }], unchecked, [], asked_halfChecked .healthy,
      fun b hb => by rw [List.mem_singleton.mp hb], rfl⟩
  have h := missing_check_reported_iff Drill.host "demo" "db" (halfChecked .healthy) ⟨rfl, rfl⟩ rfl
  exact ⟨⟨rfl, rfl⟩, rfl, h.1.1.mpr hstops, h.2.1.1.mpr hstops, _, h.2.2.1 1 _ rfl⟩

/-- Behind a container that is starting the missing health check is not reported: a poll does not
    pass, and a gate waits without an end. -/
theorem not_missing_check_reported_sample :
    (∃ c ∈ (halfChecked .starting).store.containers,
      (Labels.serviceFilter "demo" "db").accepts c.labels = true ∧ c.health = none) ∧
    Drill.host.peaceful (halfChecked .starting) ∧
    ((halfChecked .starting).store.pending = fun _ => none) ∧
    EndsWith (Poll.resume Drill.engine "demo" "db") Poll.wake .fresh (halfChecked .starting)
      (.ok false) ∧
    ∀ turns, runAlone (Gate.resume Drill.engine "demo" "db") Gate.wake turns .fresh
      ⟨false, halfChecked .starting⟩ = none := by
  have hstill : Still Drill.host (halfChecked .starting) (halfChecked .starting) :=
    ⟨⟨rfl, rfl⟩, rfl, rfl, rfl⟩
  have hscan : Poll.scan "db" (asked "demo" "db" (halfChecked .starting).store.containers) =
      .ok false := by
    rw [asked_halfChecked]
    rfl
  refine ⟨⟨unchecked, List.mem_pair.mpr (Or.inr rfl), by decide, rfl⟩, ⟨rfl, rfl⟩, rfl,
    (Poll.endsWith_iff hstill "demo" "db" _).mpr hscan, Gate.never_of_scan hstill hscan⟩

end Samples

end Fleet
