import Fleet.Proofs.CreateWords
import Fleet.Proofs.Unchecked

/-!
# Who has a health check

Two readers decide from the test of a blueprint whether a new container is checked. The
store looks at the first word only: a container is checked unless the check is turned off
by `NONE`. The client is given a check if there is a line for the shell to be run, and a
check is turned off only if `NONE` is all there is.

They differ in both directions. A test may come to an empty line, and then the store says
that the container is checked and the client is not asked for a check. Or words may follow
`NONE`, and then the store says that it is not checked and the client is given those words
as a check. Beyond these there is only an image that begins with two dashes, which the
client takes for an option. `Disputed` has one constructor for each reason, and
`Store.checked_iff_asks` says that these are all.

A gate on the store finds a new container without a health check exactly if the store has
decided so, and so it speaks for the client except in the same cases.

## Main definitions

* `Docker.Asks`: Words hold the option of a health check.
* `Docker.Disputed`: The reasons why the two readers differ.

## Theorems

* `Docker.emptyLine_iff`: The tests that come to an empty line.
* `Docker.asks_createArguments`: When the client is asked for a health check.
* `Store.created_of_ok`: What a creation that succeeds leaves behind.
* `Store.checked_iff_asks`: When store and client agree about a new container.
-/

namespace Fleet

namespace Docker

/-! ### What the client is asked for -/

/-- The option of a health check. -/
def checkOption : String := "--health-cmd"

/-- Words behind `create` hold the option of a health check. -/
def Asks (words : List String) : Prop :=
  ∃ s ∈ (readSettings words).1, s.option = checkOption

/-- The image and the words of the command are read as the option of a health check, as can
    happen if the image begins with two dashes. -/
def Smuggles (b : Blueprint) : Prop := Asks (b.image :: b.command)

theorem not_smuggles {b : Blueprint} (h : Text.begins b.image "--" = false) : ¬Smuggles b := by
  rintro ⟨s, hs, _⟩
  rw [readSettings_of_not_begins h] at hs
  exact List.not_mem_nil hs

/-- The tests whose line for the shell is empty. -/
def emptyTests : List (List String) := [[], [""], ["CMD"], ["CMD-SHELL"], ["CMD-SHELL", ""]]

theorem spaced_eq_empty {words : List String} : spaced words = "" ↔ words = [] ∨ words = [""] := by
  cases words with
  | nil => exact iff_of_true rfl (Or.inl rfl)
  | cons word rest =>
      cases rest with
      | nil => simp only [spaced, String.intercalate_singleton, List.cons.injEq, and_true,
          reduceCtorEq, false_or]
      | cons next rest =>
          refine iff_of_false (fun h => ?_) (by simp)
          rw [spaced, String.intercalate_cons_cons] at h
          have hlength := congrArg String.length h
          simp at hlength

/-- No word is quoted as nothing. -/
theorem shellQuote_ne_empty (word : String) : shellQuote word ≠ "" := by
  intro h
  rw [shellQuote] at h
  split at h
  · next hplain =>
    rw [h] at hplain
    exact absurd hplain (by decide)
  · have hlist := congrArg String.toList h
    simp at hlist

/-- The tests that come to an empty line. -/
theorem emptyLine_iff (test : List String) : healthLine test = some "" ↔ test ∈ emptyTests := by
  simp only [emptyTests, List.mem_cons, List.not_mem_nil, or_false]
  unfold healthLine
  split
  · simp
  · next rest => simp [spaced_eq_empty]
  · next rest =>
    simp only [Option.some.injEq, spaced_eq_empty, List.map_eq_nil_iff]
    constructor
    · rintro (rfl | h)
      · simp
      · rcases List.map_eq_singleton_iff.mp h with ⟨word, rfl, hword⟩
        exact absurd hword (shellQuote_ne_empty word)
    · intro h
      exact Or.inl (by simpa using h)
  · next hnone hshell hdirect =>
    simp only [Option.some.injEq, spaced_eq_empty]
    constructor
    · rintro (h | h)
      · exact Or.inl h
      · exact Or.inr (Or.inl h)
    · rintro (h | h | h | h | h)
      · exact Or.inl h
      · exact Or.inr h
      · exact absurd h (hdirect [])
      · exact absurd h (hshell [])
      · exact absurd h (hshell [""])

theorem healthLine_eq_none {test : List String} : healthLine test = none ↔ test = ["NONE"] := by
  unfold healthLine
  split
  · simp
  · simp
  · simp
  · next hnone _ _ => simpa using hnone

theorem asks_settings_iff (b : Blueprint) : (∃ s ∈ settings b, s.option = checkOption) ↔
    ∃ check, b.healthcheck = some check ∧ check.test ≠ ["NONE"] ∧ check.test ∉ emptyTests := by
  constructor
  · rintro ⟨s, hs, hoption⟩
    rcases settings_cases hs with ⟨option, hplain, value, rfl⟩ | ⟨check, hcheck, hs⟩
    · have hother : ∀ option ∈ plainOptions, option ≠ checkOption := by decide
      exact absurd hoption (hother option hplain)
    · refine ⟨check, hcheck, fun htest => ?_, fun htest => ?_⟩
      · rw [healthSettings, healthLine_eq_none.mpr htest] at hs
        rw [List.mem_singleton.mp hs] at hoption
        exact absurd hoption (by decide)
      · rw [healthSettings, (emptyLine_iff _).mpr htest] at hs
        exact List.not_mem_nil hs
  · rintro ⟨check, hcheck, hon, hline⟩
    rcases Option.ne_none_iff_exists'.mp (mt healthLine_eq_none.mp hon) with ⟨line, heq⟩
    have hnonempty : ¬line.isEmpty = true := fun hempty => by
      rw [String.isEmpty_iff.mp hempty] at heq
      exact hline ((emptyLine_iff _).mp heq)
    refine ⟨.ofValue checkOption line, ?_, rfl⟩
    have hmem : Setting.ofValue checkOption line ∈ healthSettings check := by
      simp only [healthSettings, heq, if_neg hnonempty, lineSettings, List.append_assoc]
      exact List.mem_append_left _ (List.mem_singleton_self _)
    refine List.mem_append_right _ ?_
    rw [hcheck]
    exact hmem

/-- The client is asked for a health check by the settings of the blueprint, or else by an image
    that is taken for an option. -/
theorem asks_createArguments (b : Blueprint) : Asks (createArguments b).tail ↔
    (∃ check, b.healthcheck = some check ∧ check.test ≠ ["NONE"] ∧ check.test ∉ emptyTests) ∨
      Smuggles b := by
  rw [← asks_settings_iff, Smuggles, Asks, Asks, readSettings_createArguments]
  constructor
  · rintro ⟨s, hs, hoption⟩
    exact (List.mem_append.mp hs).imp (⟨s, ·, hoption⟩) (⟨s, ·, hoption⟩)
  · rintro (⟨s, hs, hoption⟩ | ⟨s, hs, hoption⟩)
    · exact ⟨s, List.mem_append_left _ hs, hoption⟩
    · exact ⟨s, List.mem_append_right _ hs, hoption⟩

/-- The reasons why store and client differ about a blueprint. -/
inductive Disputed (b : Blueprint) : Prop
  -- The line for the shell is empty: the store has a check, and the client none.
  | emptyLine {check : Healthcheck} : b.healthcheck = some check → check.test ∈ emptyTests →
    ¬Smuggles b → Disputed b
  -- Words follow `NONE`: the client has a check, and the store none.
  | trailing {check : Healthcheck} {word : String} {rest : List String} :
    b.healthcheck = some check → check.test = "NONE" :: word :: rest → Disputed b
  -- The image is taken for an option: the client has a check, and the store none.
  | smuggled : Smuggles b → (∀ check, b.healthcheck = some check → check.test = ["NONE"]) →
    Disputed b

theorem disputed_iff_of_off {b : Blueprint}
    (h : ∀ check, b.healthcheck = some check → check.test = ["NONE"]) :
    Disputed b ↔ Smuggles b := by
  constructor
  · intro hdisputed
    cases hdisputed with
    | emptyLine hcheck htest _ =>
        rw [h _ hcheck] at htest
        exact absurd htest (by decide)
    | trailing hcheck htest =>
        rw [h _ hcheck] at htest
        cases htest
    | smuggled hsmuggles _ => exact hsmuggles
  · exact fun hsmuggles => .smuggled hsmuggles h

theorem disputed_iff_of_on {b : Blueprint} {check : Healthcheck}
    (hcheck : b.healthcheck = some check) (hon : check.test.head? ≠ some "NONE") :
    Disputed b ↔ check.test ∈ emptyTests ∧ ¬Smuggles b := by
  constructor
  · intro hdisputed
    cases hdisputed with
    | emptyLine hcheck' htest hsmuggles =>
        cases hcheck.symm.trans hcheck'
        exact ⟨htest, hsmuggles⟩
    | trailing hcheck' htest =>
        cases hcheck.symm.trans hcheck'
        exact absurd (by rw [htest]; rfl) hon
    | smuggled _ htest => exact absurd (by rw [htest check hcheck]; rfl) hon
  · exact fun ⟨htest, hsmuggles⟩ => .emptyLine hcheck htest hsmuggles

/-- Unless the image begins with two dashes, store and client differ about tests alone. -/
theorem disputed_iff_of_image {b : Blueprint} (h : Text.begins b.image "--" = false) :
    Disputed b ↔ ∃ check, b.healthcheck = some check ∧
      (check.test ∈ emptyTests ∨ ∃ word rest, check.test = "NONE" :: word :: rest) := by
  constructor
  · intro hdisputed
    cases hdisputed with
    | emptyLine hcheck htest _ => exact ⟨_, hcheck, Or.inl htest⟩
    | trailing hcheck htest => exact ⟨_, hcheck, Or.inr ⟨_, _, htest⟩⟩
    | smuggled hsmuggles _ => exact absurd hsmuggles (not_smuggles h)
  · rintro ⟨check, hcheck, htest | ⟨word, rest, htest⟩⟩
    · exact .emptyLine hcheck htest (not_smuggles h)
    · exact .trailing hcheck htest

end Docker

/-! ### What the store decides -/

namespace Store

open Docker

/-- The store looks at the first word of the test. -/
theorem firstHealth_ne_none_iff (s : Store) (b : Blueprint) : s.firstHealth b ≠ none ↔
    ∃ check, b.healthcheck = some check ∧ check.test.head? ≠ some "NONE" := by
  rw [firstHealth]
  cases b.healthcheck with
  | none => simp
  | some check => simp

/-- A creation that succeeds leaves one container more, behind the others. -/
theorem created_of_ok {s : Store} {b : Blueprint} {id : String}
    (h : (call (.create b) s).1 = .ok id) :
    ∃ c : Container, (call (.create b) s).2.containers = s.containers ++ [c] ∧ c.id = id ∧
      c.health = s.firstHealth b := by
  cases hpending : s.pending .create with
  | some reason =>
      rw [call_of_pending_some hpending] at h
      cases h
  | none =>
      rw [call_of_pending_none hpending] at h ⊢
      rw [serve, create] at h ⊢
      split at h
      · cases h
      · next hfree =>
        rw [if_neg hfree]
        cases h
        exact ⟨_, rfl, rfl, rfl⟩

/-- Store and client agree whether a blueprint asks for a health check if there is no reason why
    they should not. -/
theorem checked_iff_asks (s : Store) (b : Blueprint) :
    (s.firstHealth b ≠ none ↔ Asks (createArguments b).tail) ↔ ¬Disputed b := by
  rw [firstHealth_ne_none_iff, asks_createArguments]
  cases hcheck : b.healthcheck with
  | none =>
      rw [disputed_iff_of_off fun _ h => nomatch hcheck.symm.trans h]
      simp
  | some check =>
      simp only [Option.some.injEq, exists_eq_left']
      by_cases hon : check.test.head? = some "NONE"
      · rcases List.head?_eq_some_iff.mp hon with ⟨rest, htest⟩
        cases rest with
        | nil =>
            rw [disputed_iff_of_off fun _ h => Option.some.inj (hcheck.symm.trans h) ▸ htest]
            simp [htest]
        | cons word rest =>
            have hdisputed : Disputed b := .trailing hcheck htest
            simp [htest, hdisputed, emptyTests]
      · have hne : check.test ≠ ["NONE"] := fun h => hon (by rw [h]; rfl)
        rw [disputed_iff_of_on hcheck hon]
        simp only [ne_eq, hon, hne, not_false_eq_true, true_and, true_iff]
        tauto

end Store

/-! ### What a gate makes of it -/

section Gates

variable {ρ : Type} {H : Host ρ} {w : ρ}

/-- A gate fails if its first poll does, and with the same error. -/
theorem Gate.endsWith_error_iff (hstill : Still H w w) (project dependency : String)
    (error : Error) :
    EndsWith (resume H.engine project dependency) wake fresh ⟨false, w⟩ (.error error) ↔
      Poll.scan dependency (asked project dependency (H.store w).containers) = .error error := by
  cases hscan : Poll.scan dependency (asked project dependency (H.store w).containers) with
  | error cause =>
      rw [Gate.endsWith_iff hstill hscan nofun]
      simp only [Except.map, Except.error.injEq]
  | ok passed =>
      cases passed with
      | false => exact iff_of_false (fun h => h.exists_some (Gate.never_of_scan hstill hscan)) nofun
      | true =>
          rw [Gate.endsWith_iff hstill hscan nofun]
          exact iff_of_false nofun nofun

/-- Of a single container a poll reports that it has no health check if it has none. -/
theorem Poll.scan_singleton_iff (dependency : String) (c : Container) :
    scan dependency [c] = .error (.noHealthcheck dependency) ↔ c.health = none := by
  rw [scan, scan]
  rcases c.health with _ | _ | _ | _ <;> simp [verdict]

end Gates

/-- Store and client agree whether a new container has a health check, and so does a gate in front
    of it with the client, if there is no reason in its blueprint why they should not. -/
theorem checks_agree_iff {s : Store} {b : Blueprint} {id : String}
    (h : (Store.call (.create b) s).1 = .ok id) :
    ∃ c : Container, (Store.call (.create b) s).2.containers = s.containers ++ [c] ∧ c.id = id ∧
      let asks := Docker.Asks (Docker.createArguments b).tail
      ((c.health ≠ none ↔ asks) ↔ ¬Docker.Disputed b) ∧
      (∀ (ρ : Type) (H : Host ρ) (w : ρ) (project dependency : String) (d : Container),
        H.peaceful w → ((H.store w).pending = fun _ => none) → d.health = c.health →
        asked project dependency (H.store w).containers = [d] →
        let poll := EndsWith (Poll.resume H.engine project dependency) Poll.wake .fresh w
        let gate := EndsWith (Gate.resume H.engine project dependency) Gate.wake .fresh ⟨false, w⟩
        ((poll (.error (.noHealthcheck dependency)) ↔ ¬asks) ↔ ¬Docker.Disputed b) ∧
        ((gate (.error (.noHealthcheck dependency)) ↔ ¬asks) ↔ ¬Docker.Disputed b)) ∧
      (Text.begins b.image "--" = false → (Docker.Disputed b ↔ ∃ check, b.healthcheck = some check ∧
        (check.test ∈ Docker.emptyTests ∨ ∃ word rest, check.test = "NONE" :: word :: rest))) := by
  rcases Store.created_of_ok h with ⟨c, hcontainers, hid, hhealth⟩
  have hagree : (c.health ≠ none ↔ Docker.Asks (Docker.createArguments b).tail) ↔
      ¬Docker.Disputed b := hhealth ▸ s.checked_iff_asks b
  refine ⟨c, hcontainers, hid, hagree, ?_, Docker.disputed_iff_of_image⟩
  intro ρ H w project dependency d hpeaceful hclean hsame hasked poll gate
  have hstill : Still H w w := ⟨hpeaceful, hclean, rfl, rfl⟩
  have hpoll : poll (.error (.noHealthcheck dependency)) ↔ c.health = none := by
    rw [← hsame, ← Poll.scan_singleton_iff dependency d, ← hasked]
    exact Poll.endsWith_iff hstill project dependency _
  have hgate : gate (.error (.noHealthcheck dependency)) ↔ c.health = none := by
    rw [← hsame, ← Poll.scan_singleton_iff dependency d, ← hasked]
    exact Gate.endsWith_error_iff hstill project dependency _
  have hnot : (c.health = none ↔ ¬Docker.Asks (Docker.createArguments b).tail) ↔
      ¬Docker.Disputed b := by
    rw [← hagree, ← not_iff_not (a := c.health = none), not_not]
  rw [hpoll, hgate]
  exact ⟨hnot, hnot⟩

/-! ### A check and an empty one -/

namespace Sample

/-- A container of a database, with a test for its health check. -/
def database (test : List String) : Blueprint where
  name := "demo_db_1"
  image := "postgres:16"
  command := []
  environment := Dict.empty
  volumes := []
  labels := Dict.ofList [(Labels.projectKey, "demo"), (Labels.serviceKey, "db")]
  resources := none
  healthcheck := some ⟨test, none, none, none⟩

/-- A drill on a store with the new container of a database. -/
def databaseDrill (test : List String) : Drill :=
  ⟨(Store.call (.create (database test)) .empty).2, false, 0, []⟩

end Sample

section Samples

open Sample

/-- A check that is a line for the shell is asked for, and the store and a gate know of it. -/
theorem checks_agree_sample :
    (Store.call (.create (database ["CMD-SHELL", "pg_isready"])) .empty).1 =
      .ok (Store.freshId 1) ∧
    ¬Docker.Disputed (database ["CMD-SHELL", "pg_isready"]) ∧
    ∃ c, (Store.call (.create (database ["CMD-SHELL", "pg_isready"])) .empty).2.containers = [c] ∧
      (c.health ≠ none ↔
        Docker.Asks (Docker.createArguments (database ["CMD-SHELL", "pg_isready"])).tail) := by
  rcases checks_agree_iff (s := .empty) (b := database ["CMD-SHELL", "pg_isready"]) rfl with
    ⟨c, hcontainers, _, hagree, _, hdisputed⟩
  have hundisputed : ¬Docker.Disputed (database ["CMD-SHELL", "pg_isready"]) := by
    rw [hdisputed (by decide)]
    rintro ⟨check, hcheck, htest⟩
    cases hcheck
    rcases htest with htest | ⟨_, _, htest⟩
    · exact absurd htest (by decide)
    · exact absurd (List.cons.inj htest).1 (by decide)
  exact ⟨rfl, hundisputed, c, hcontainers, hagree.mpr hundisputed⟩

/-- With an empty test the client is not asked for a health check, and yet the store gives the new
    container a health status, so that a poll finds it healthy and reports nothing. -/
theorem not_checks_agree_sample :
    (Store.call (.create (database [])) .empty).1 = .ok (Store.freshId 1) ∧
    ¬Docker.Asks (Docker.createArguments (database [])).tail ∧
    (∃ c, (Store.call (.create (database [])) .empty).2.containers = [c] ∧
      c.health = some .healthy) ∧
    EndsWith (Poll.resume Drill.engine "demo" "db") Poll.wake .fresh (databaseDrill [])
      (.ok true) := by
  have hstill : Still Drill.host (databaseDrill []) (databaseDrill []) :=
    ⟨⟨rfl, rfl⟩, rfl, rfl, rfl⟩
  refine ⟨rfl, ?_, ⟨_, rfl, rfl⟩, (Poll.endsWith_iff hstill "demo" "db" _).mpr (by decide)⟩
  rw [Docker.asks_createArguments]
  rintro (⟨check, hcheck, _, hline⟩ | hsmuggles)
  · cases hcheck
    exact hline (by decide)
  · exact Docker.not_smuggles (by decide) hsmuggles

end Samples

end Fleet
