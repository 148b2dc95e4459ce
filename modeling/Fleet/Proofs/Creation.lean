import Fleet.Proofs.Checks

/-!
# A creation read back

What a blueprint asks for reaches the client as one list of words, put together from seven
parts of any length. Nothing marks a word as a value but its place behind an option, so one
option without its value, or a value too many, would shift the meaning of every word behind it,
and what was a label would name the image. Looking at single words does not settle this: most of
them come from the blueprint and may look like anything.

The client's reading of the words is therefore defined on its own (`readCreation`), and a
blueprint is compared with what the client understands, option by option (`Conveys`). The only
word that the client has to recognise is the image, which ends the options by not beginning
with a dash.

A health check has options only if there is a line to be run, and a check that is turned off has
an option of its own. The check that has options is singled out first (`Blueprint.check?`); the
values of its options are then those of its fields, and no case is left.

## Main definitions

* `Docker.Creation`, `Docker.readCreation`: What the client understands words to create.
* `Docker.valuesOf`: The values of an option.
* `Docker.Conveys`: Settings ask for what a blueprint asks for.

## Theorems

* `Docker.conveys_settings`: The settings of a creation ask for what the blueprint asks for.
* `Docker.readCreation_createArguments`: A creation is understood as it was meant.
-/

namespace Fleet

/-- The health check that is run, with its line for the shell. -/
def Blueprint.check? (b : Blueprint) : Option (Healthcheck × String) := do
  let check ← b.healthcheck
  let line ← Docker.healthLine check.test
  if line.isEmpty then none else some (check, line)

/-- The health check is turned off. -/
def Blueprint.unwatched (b : Blueprint) : Bool := b.healthcheck.any (·.test = ["NONE"])

namespace Docker

/-- A creation as the client understands it. -/
structure Creation where
  settings : List Setting
  image : String
  -- Words behind the image.
  command : List String
  deriving DecidableEq

/-- What the client understands words to create, if it understands them. -/
def readCreation : List String → Option Creation
  | "create" :: words =>
    match readSettings words with
    | (settings, image :: command) =>
      if Text.begins image "-" then none else some ⟨settings, image, command⟩
    | (_, []) => none
  | _ => none

/-- The values of an option in order; an option that stands alone has none. -/
def valuesOf (option : String) (settings : List Setting) : List (Option String) :=
  (settings.filter (·.option = option)).map (·.value)

/-- An option has the values given. -/
def Gives (settings : List Setting) (option : String) (values : List String) : Prop :=
  valuesOf option settings = values.map some

/-- The options that a creation may have. -/
def creationOptions : List String :=
  plainOptions ++ [noCheck.option, checkOption, "--health-interval", "--health-timeout",
    "--health-retries"]

/-- Settings ask for what a blueprint asks for, and for nothing else. -/
structure Conveys (b : Blueprint) (settings : List Setting) : Prop where
  name : Gives settings "--name" [b.name]
  labels : Gives settings "--label" (b.labels.entries.map fun e => e.1 ++ "=" ++ e.2)
  environment : Gives settings "--env" (b.environment.entries.map fun e => e.1 ++ "=" ++ e.2)
  volumes : Gives settings "--volume" b.volumes
  cpus : Gives settings "--cpus" ((b.resources.bind (·.cpus)).map layout.write).toList
  memory : Gives settings "--memory" (b.resources.bind (·.memory)).toList
  unwatched : valuesOf noCheck.option settings = if b.unwatched then [none] else []
  line : Gives settings checkOption (b.check?.map (·.2)).toList
  interval : Gives settings "--health-interval"
    ((b.check?.bind (·.1.interval)).map seconds).toList
  timeout : Gives settings "--health-timeout"
    ((b.check?.bind (·.1.timeout)).map seconds).toList
  retries : Gives settings "--health-retries"
    ((b.check?.bind (·.1.retries)).map fun n => toString n.toNat).toList
  known : ∀ s ∈ settings, s.option ∈ creationOptions

theorem not_begins_dashes {word : String} (h : Text.begins word "-" = false) :
    Text.begins word "--" = false := by
  unfold Text.begins at h ⊢
  cases hword : word.toList with
  | nil => rfl
  | cons c rest =>
      have hc : ('-' == c) = false := by
        rw [hword] at h
        exact (Bool.and_true _).symm.trans h
      change (('-' == c) && _) = false
      rw [hc, Bool.false_and]

/-! ### Values of an option -/

theorem valuesOf_append (option : String) (l m : List Setting) :
    valuesOf option (l ++ m) = valuesOf option l ++ valuesOf option m := by
  rw [valuesOf, List.filter_append, List.map_append]
  rfl

theorem valuesOf_of_ne {option : String} {settings : List Setting}
    (h : ∀ s ∈ settings, s.option ≠ option) : valuesOf option settings = [] := by
  rw [valuesOf, List.filter_eq_nil_iff.mpr fun s hs => by simpa using h s hs, List.map_nil]

/-- Settings of one option give its values, and none of another. -/
theorem valuesOf_map {α : Type} (option other : String) (write : α → String)
    (values : List α) : valuesOf option (values.map fun value => .ofValue other (write value)) =
      if other = option then values.map fun value => some (write value) else [] := by
  by_cases h : other = option
  · rw [if_pos h, valuesOf, List.filter_eq_self.mpr, List.map_map]
    · rfl
    · intro s hs
      rcases List.mem_map.mp hs with ⟨_, _, rfl⟩
      exact decide_eq_true h
  · rw [if_neg h]
    refine valuesOf_of_ne fun s hs => ?_
    rcases List.mem_map.mp hs with ⟨_, _, rfl⟩
    exact h

theorem valuesOf_entrySettings (option other : String) (dict : Dict String) :
    valuesOf option (entrySettings other dict) =
      if other = option then dict.entries.map fun e => some (e.1 ++ "=" ++ e.2) else [] :=
  valuesOf_map option other (fun e : String × String => e.1 ++ "=" ++ e.2) dict.entries

theorem valuesOf_someSetting {α : Type} (option other : String) (write : α → String)
    (value : Option α) : valuesOf option (someSetting other write value) =
      if other = option then (value.map write).toList.map some else [] := by
  have h := valuesOf_map option other write value.toList
  cases value <;> exact h

theorem valuesOf_limitSettings (option : String) (resources : Option Limits) :
    valuesOf option (resources.elim [] limitSettings) =
      (if "--cpus" = option then
        ((resources.bind (·.cpus)).map layout.write).toList.map some else []) ++
      if "--memory" = option then (resources.bind (·.memory)).toList.map some else [] := by
  cases resources with
  | none => simp [valuesOf]
  | some limits =>
      rw [Option.elim_some, limitSettings, valuesOf_append, valuesOf_someSetting,
        valuesOf_someSetting, Option.map_id]
      rfl

theorem valuesOf_lineSettings (option : String) (run : Option (Healthcheck × String)) :
    valuesOf option (run.elim [] fun c => lineSettings c.1 c.2) =
      (if checkOption = option then (run.map (·.2)).toList.map some else []) ++
      (if "--health-interval" = option then
        ((run.bind (·.1.interval)).map seconds).toList.map some else []) ++
      (if "--health-timeout" = option then
        ((run.bind (·.1.timeout)).map seconds).toList.map some else []) ++
      if "--health-retries" = option then
        ((run.bind (·.1.retries)).map fun n => toString n.toNat).toList.map some else [] := by
  cases run with
  | none => simp [valuesOf]
  | some run =>
      have hline : valuesOf option [.ofValue "--health-cmd" run.2] =
          if checkOption = option then [some run.2] else [] :=
        valuesOf_map option checkOption id [run.2]
      simp only [Option.elim_some, lineSettings, valuesOf_append, valuesOf_someSetting, hline]
      rfl

/-- A health check has the option that turns it off, or those of its line, or none. -/
theorem healthSettings_eq (b : Blueprint) : b.healthcheck.elim [] healthSettings =
    (if b.unwatched then [noCheck] else []) ++
      b.check?.elim [] fun c => lineSettings c.1 c.2 := by
  rw [Blueprint.unwatched, Blueprint.check?]
  cases b.healthcheck with
  | none => rfl
  | some check =>
      simp only [Option.elim_some, healthSettings, Option.any_some, decide_eq_true_eq,
        Option.bind_eq_bind, Option.bind_some]
      cases hline : healthLine check.test with
      | none =>
          rw [if_pos (healthLine_eq_none.mp hline)]
          rfl
      | some line =>
          have hon : check.test ≠ ["NONE"] := fun h => by
            rw [healthLine_eq_none.mpr h] at hline
            cases hline
          simp only [if_neg hon, List.nil_append, Option.bind_some]
          by_cases hempty : line.isEmpty = true
          · simp only [if_pos hempty, Option.elim_none]
          · simp only [if_neg hempty, Option.elim_some]

theorem valuesOf_noCheck (option : String) (b : Blueprint) :
    valuesOf option (if b.unwatched then [noCheck] else []) =
      if noCheck.option = option then (if b.unwatched then [none] else []) else [] := by
  by_cases h : noCheck.option = option
  · rw [if_pos h, ← h]
    cases b.unwatched <;> rfl
  · rw [if_neg h]
    refine valuesOf_of_ne fun s hs => ?_
    split at hs
    · exact List.mem_singleton.mp hs ▸ h
    · exact absurd hs List.not_mem_nil

/-- The values of an option are those that the parts of a creation have for it. -/
theorem valuesOf_settings (option : String) (b : Blueprint) : valuesOf option (settings b) =
    (if "--name" = option then [some b.name] else []) ++
    (if "--label" = option then b.labels.entries.map fun e => some (e.1 ++ "=" ++ e.2) else []) ++
    (if "--env" = option then b.environment.entries.map fun e => some (e.1 ++ "=" ++ e.2)
      else []) ++
    (if "--volume" = option then b.volumes.map some else []) ++
    valuesOf option (b.resources.elim [] limitSettings) ++
    ((if noCheck.option = option then (if b.unwatched then [none] else []) else []) ++
      valuesOf option (b.check?.elim [] fun c => lineSettings c.1 c.2)) := by
  have hname : valuesOf option [.ofValue "--name" b.name] =
      if "--name" = option then [some b.name] else [] :=
    valuesOf_map option "--name" id [b.name]
  have hvolumes : valuesOf option (b.volumes.map (.ofValue "--volume")) =
      if "--volume" = option then b.volumes.map some else [] :=
    valuesOf_map option "--volume" id b.volumes
  simp only [settings, healthSettings_eq, valuesOf_append, valuesOf_entrySettings,
    valuesOf_noCheck, hname, hvolumes]

theorem known_of_mem_settings {b : Blueprint} {s : Setting} (h : s ∈ settings b) :
    s.option ∈ creationOptions := by
  have hsome : ∀ {α : Type} {option : String} {write : α → String} {value : Option α},
      s ∈ someSetting option write value → option ∈ creationOptions →
        s.option ∈ creationOptions := by
    intro α option write value hs hoption
    rcases eq_of_mem_someSetting hs with ⟨text, rfl⟩
    exact hoption
  rcases settings_cases h with ⟨option, hoption, value, rfl⟩ | ⟨check, _, hs⟩
  · exact List.mem_append_left _ hoption
  · rw [healthSettings] at hs
    split at hs
    · rw [List.mem_singleton.mp hs]
      decide
    · split at hs
      · exact absurd hs List.not_mem_nil
      · simp only [lineSettings, List.mem_append, List.mem_singleton] at hs
        rcases hs with ((rfl | hs) | hs) | hs
        · exact (by decide : checkOption ∈ creationOptions)
        · exact hsome hs (by decide)
        · exact hsome hs (by decide)
        · exact hsome hs (by decide)

/-- The settings of a creation ask for what the blueprint asks for. -/
theorem conveys_settings (b : Blueprint) : Conveys b (settings b) := by
  -- An option is compared with that of each part, and one part is left.
  refine ⟨?_, ?_, ?_, ?_, ?_, ?_, ?_, ?_, ?_, ?_, ?_, fun s hs => known_of_mem_settings hs⟩ <;>
    simp [Gives, valuesOf_settings, valuesOf_limitSettings, valuesOf_lineSettings, noCheck,
      checkOption]

/-- A creation is understood as it was meant, whatever the words of the blueprint look like, if the
    image does not begin with a dash. -/
theorem readCreation_createArguments {b : Blueprint} (h : Text.begins b.image "-" = false) :
    ∃ settings, readCreation (createArguments b) = some ⟨settings, b.image, b.command⟩ ∧
      Conveys b settings := by
  refine ⟨settings b, ?_, conveys_settings b⟩
  have hread : readSettings (createArguments b).tail = (settings b, b.image :: b.command) := by
    rw [readSettings_createArguments, readSettings_of_not_begins (not_begins_dashes h),
      List.append_nil]
  have hwords : createArguments b = "create" :: (createArguments b).tail := by
    rw [createArguments_eq]
    rfl
  rw [hwords, readCreation]
  simp only [hread, h, Bool.false_eq_true, if_false]

end Docker

/-! ### Values that look like options -/

namespace Sample

/-- A container whose description is full of words that look like options. -/
def dashed : Blueprint where
  name := "--rm"
  image := "app:1"
  command := ["--name", "-d", "other:2"]
  environment := Dict.ofList [("--env", "--volume"), ("A", "--cpus=9")]
  volumes := ["--volume", "data:/data"]
  labels := Dict.ofList [("--label", "--no-healthcheck")]
  resources := some ⟨none, some "--memory"⟩
  healthcheck := some ⟨["CMD-SHELL", "--health-cmd"], none, some 3, none⟩

end Sample

section Samples

open Sample Docker

/-- Words that look like options are values and the command, and the image is the image. -/
theorem readCreation_createArguments_dashed :
    Text.begins dashed.image "-" = false ∧
    ∃ settings, readCreation (createArguments dashed) =
        some ⟨settings, "app:1", ["--name", "-d", "other:2"]⟩ ∧
      Gives settings "--env" ["--env=--volume", "A=--cpus=9"] ∧
      Gives settings "--label" ["--label=--no-healthcheck"] ∧
      Gives settings "--volume" ["--volume", "data:/data"] ∧
      Gives settings "--cpus" [] ∧ Gives settings "--memory" ["--memory"] ∧
      valuesOf "--no-healthcheck" settings = [] ∧
      Gives settings "--health-cmd" ["--health-cmd"] := by
  have himage : Text.begins dashed.image "-" = false := by decide
  rcases readCreation_createArguments himage with ⟨settings, hread, hconveys⟩
  exact ⟨himage, settings, hread, hconveys.environment, hconveys.labels, hconveys.volumes,
    hconveys.cpus, hconveys.memory, hconveys.unwatched, hconveys.line⟩

end Samples

end Fleet
