import Fleet.Proofs.Listing
import Fleet.Proofs.Refusal
import Fleet.Proofs.Sample

/-!
# Containers that are not there

A request about a container that is not there is answered with the id that was asked for.
Each runtime comes to this answer on a way of its own. The store looks for the id. The client
only has the complaint of the program it has called, which says that something is missing and
not reliably what; so the id is put together again from the words of the call, of which the
last one is taken (`Client.verdict`).

Both ways have an exception, and it is the same request. The last words of a call that renames
a container are its id and then the new name, so the client reports the new name as what is
missing. And the store looks at names before it looks for the container, so it reports a name
that is taken, although nothing would have been renamed. Every other request about a container
is answered as it should be.

## Theorems

* `Docker.getLastD_arguments`: The last word of a call is the id, unless a container is renamed.
* `Docker.Client.call_of_missing`: What the client makes of a complaint.
* `Store.call_of_unknown`: What a store answers about a container that it does not have.
-/

namespace Fleet

namespace Docker

/-- The last word of a call about a container is its id, unless it is renamed. -/
theorem getLastD_arguments {q : Request} {id : String} (h : q.target? = some id)
    (hother : q.verb ≠ .rename) : (arguments q).getLastD "" = id := by
  cases q with
  | list _ => cases h
  | create _ => cases h
  | rename _ _ => exact absurd rfl hother
  | inspect _ =>
      cases h
      rfl
  | start _ =>
      cases h
      rfl
  | remove _ =>
      cases h
      rfl
  | stop _ grace =>
      cases h
      rw [arguments, List.getLastD_concat]
  | connect network _ aliases =>
      cases h
      have hwords : arguments (.connect network id aliases) =
          ["network", "connect"] ++ aliases.flatMap (valued "--alias") ++ [network] ++ [id] := by
        rw [arguments, List.append_assoc _ [network]]
        rfl
      rw [hwords, List.getLastD_concat]

namespace Client

variable {ρ : Type} {L : Launcher ρ} {client : Client} {w : ρ} {outcome : Outcome}

theorem run_of_missing {words : List String} (hlaunch : (L client.program words w).1 = .ok outcome)
    (hfailed : outcome.succeeded = false)
    (hmissing : saysMissing (Text.decodeLossy outcome.stderr) = true) :
    (client.run L words w).1 = .error (.notFound (words.getLastD "")) := by
  simp only [run, hlaunch]
  exact verdict_of_missing hfailed hmissing

theorem order_of_missing {words : List String}
    (hlaunch : (L client.program words w).1 = .ok outcome) (hfailed : outcome.succeeded = false)
    (hmissing : saysMissing (Text.decodeLossy outcome.stderr) = true) :
    (client.order L words w).1 = .error (.notFound (words.getLastD "")) := by
  simp only [order, run_of_missing hlaunch hfailed hmissing, Except.map]

/-- A complaint that a container is missing is taken to be about the last word of the call. -/
theorem call_of_missing {q : Request} {id : String} (htarget : q.target? = some id)
    (hlaunch : (L client.program (arguments q) w).1 = .ok outcome)
    (hfailed : outcome.succeeded = false)
    (hmissing : saysMissing (Text.decodeLossy outcome.stderr) = true) :
    (client.call L q w).1 = .error (.notFound ((arguments q).getLastD "")) := by
  cases q with
  | list _ => cases htarget
  | create _ => cases htarget
  | inspect i =>
      have hrun := run_of_missing hlaunch hfailed hmissing
      rw [arguments] at hrun
      rw [call, inspect, inspectMany, if_neg (by simp)]
      rcases hcall : client.run L (inspectArguments [i]) w with ⟨result, w'⟩
      rw [hcall] at hrun
      obtain rfl : result = _ := hrun
      rfl
  | start _ => exact order_of_missing hlaunch hfailed hmissing
  | stop _ _ => exact order_of_missing hlaunch hfailed hmissing
  | rename _ _ => exact order_of_missing hlaunch hfailed hmissing
  | remove _ => exact order_of_missing hlaunch hfailed hmissing
  | connect _ _ _ => exact order_of_missing hlaunch hfailed hmissing

end Client

end Docker

namespace Store

/-- What a store answers about a container that it does not have: that it is not there, unless the
    container was to get a name that is taken. -/
theorem call_of_unknown {s : Store} {q : Request} {id : String} (htarget : q.target? = some id)
    (hout : ∀ c ∈ s.containers, c.id ≠ id) (hnone : s.pending q.verb = none) :
    ((s.call q).1 = .error (.notFound id) ↔
      ∀ name, q = .rename id name → ∀ c ∈ s.containers, c.name ≠ name) ∧
    ∀ name, q = .rename id name → (∃ c ∈ s.containers, c.name = name) →
      (s.call q).1 = .error (.refused .rename (.nameInUse name)) := by
  rw [call_of_pending_none hnone]
  refine ⟨serve_eq_error_iff.trans ⟨fun h => h.target.2.2, fun h => .unknown htarget hout h⟩, ?_⟩
  rintro name rfl ⟨c, hc, hname⟩
  exact serve_eq_error_iff.mpr (.takenByOther ⟨c, hc, hname, hout c hc⟩)

end Store

/-- A container that is not there is reported by the id that was asked for: by the store unless it
    was to be renamed to a name that is taken, and by the client unless it was to be renamed to
    anything but its id. -/
theorem unknown_reported_iff {q : Request} {id : String} (h : q.target? = some id) :
    (∀ s : Store, (∀ c ∈ s.containers, c.id ≠ id) → s.pending q.verb = none →
      ((s.call q).1 = .error (.notFound id) ↔
        ∀ name, q = .rename id name → ∀ c ∈ s.containers, c.name ≠ name) ∧
      ∀ name, q = .rename id name → (∃ c ∈ s.containers, c.name = name) →
        (s.call q).1 = .error (.refused .rename (.nameInUse name))) ∧
    (∀ (ρ : Type) (L : Launcher ρ) (client : Docker.Client) (w : ρ) (outcome : Outcome),
      (L client.program (Docker.arguments q) w).1 = .ok outcome → outcome.succeeded = false →
      Docker.Client.saysMissing (Text.decodeLossy outcome.stderr) = true →
      ((client.call L q w).1 = .error (.notFound id) ↔ ∀ name, q = .rename id name → name = id) ∧
      ∀ name, q = .rename id name → (client.call L q w).1 = .error (.notFound name)) := by
  refine ⟨fun s hout hnone => Store.call_of_unknown h hout hnone, ?_⟩
  intro ρ L client w outcome hlaunch hfailed hmissing
  have hanswer := Docker.Client.call_of_missing h hlaunch hfailed hmissing
  have hrename : ∀ name, q = .rename id name →
      (client.call L q w).1 = .error (.notFound name) := by
    rintro name rfl
    exact hanswer
  refine ⟨⟨fun hid name hq => ?_, fun hall => ?_⟩, hrename⟩
  · have heq := (hrename name hq).symm.trans hid
    simpa only [Except.error.injEq, RuntimeError.notFound.injEq] using heq
  · by_cases hverb : q.verb = .rename
    · -- The new name is the last word, and it is the id.
      cases q with
      | rename i name =>
          cases h
          rw [hrename name rfl, hall name rfl]
      | _ => exact nomatch hverb
    · rw [hanswer, Docker.getLastD_arguments h hverb]

/-! ### A client that knows no container -/

namespace Sample

/-- A client that has no containers, and says so. -/
def bare : Launcher Unit := fun _ _ w =>
  (.ok ⟨[], Text.encode "Error response from daemon: No such container: missing", some 1⟩, w)

theorem bare_complains : Docker.Client.saysMissing (Text.decodeLossy (Text.encode
    "Error response from daemon: No such container: missing")) = true := by
  rw [Text.decodeLossy_encode]
  decide

end Sample

section Samples

open Sample

/-- A container that is not there is to be removed, and both say that it is not there. -/
theorem unknown_reported_sample :
    (Request.remove "missing").target? = some "missing" ∧
    ((Store.empty.seed container).call (.remove "missing")).1 = .error (.notFound "missing") ∧
    (Docker.Client.usual.call bare (.remove "missing") ()).1 = .error (.notFound "missing") := by
  rcases unknown_reported_iff (q := .remove "missing") rfl with ⟨hstore, hclient⟩
  refine ⟨rfl, ?_, ?_⟩
  · exact (hstore (Store.empty.seed container) (by decide) rfl).1.mpr nofun
  · exact (hclient Unit bare .usual () _ rfl rfl bare_complains).1.mpr nofun

/-- A container that is not there is to be renamed. The client reports the new name as missing,
    and a store in which the name is taken reports that. -/
theorem not_unknown_reported_sample :
    (Docker.Client.usual.call bare (.rename "missing" "demo_web_1") ()).1 =
      .error (.notFound "demo_web_1") ∧
    (Docker.Client.usual.call bare (.rename "missing" "demo_web_1") ()).1 ≠
      .error (.notFound "missing") ∧
    ((Store.empty.seed container).call (.rename "missing" "demo_web_1")).1 =
      .error (.refused .rename (.nameInUse "demo_web_1")) ∧
    ((Store.empty.seed container).call (.rename "missing" "demo_web_1")).1 ≠
      .error (.notFound "missing") := by
  have hclient : (Docker.Client.usual.call bare (.rename "missing" "demo_web_1") ()).1 =
      .error (.notFound "demo_web_1") :=
    Docker.Client.call_of_missing (q := .rename "missing" "demo_web_1") rfl rfl rfl bare_complains
  have hstore : ((Store.empty.seed container).call (.rename "missing" "demo_web_1")).1 =
      .error (.refused .rename (.nameInUse "demo_web_1")) :=
    (Store.call_of_unknown rfl (by decide) rfl).2 "demo_web_1" rfl
      ⟨container, List.mem_singleton_self _, rfl⟩
  refine ⟨hclient, ?_, hstore, ?_⟩
  · rw [hclient]
    simp
  · rw [hstore]
    simp

end Samples

end Fleet
