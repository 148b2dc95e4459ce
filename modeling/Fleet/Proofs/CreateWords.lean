import Fleet.Docker.Arguments
import Fleet.Text.Search

/-!
# Words that create a container

The client takes the words behind `create` for options as long as they begin with two
dashes, and the first that does not is the image. One option stands alone; every other
takes the word behind it as its value, whatever that word looks like. This reading is
defined here on any words (`readSettings`).

Creation writes settings and then the image with the command, and what is read of it is
exactly the settings that were written, followed by what is read of the image and the
command (`readSettings_createArguments`). The image is not looked at when the words are
written. One that begins with two dashes would be taken for an option, with the words of
the command behind it; any other ends the options.

## Main definitions

* `Setting`: An option with its value.
* `readSettings`: The options at the front of words, and the words behind them.
* `settings`: The options that a container is created with.
* `plainOptions`: The options of everything but health checks.

## Theorems

* `createArguments_eq`: The words of a creation are those of its settings, the image and the
  command.
* `readSettings_words`: Settings are read back as they were written.
-/

namespace Fleet.Docker

/-- An option of the client with its value; one that stands alone has none. -/
structure Setting where
  option : String
  value : Option String
  deriving DecidableEq

/-- The option that stands alone. -/
def noCheck : Setting := ⟨"--no-healthcheck", none⟩

namespace Setting

/-- An option with a value. -/
def ofValue (option value : String) : Setting := ⟨option, some value⟩

/-- The words of a setting. -/
def words (setting : Setting) : List String := setting.option :: setting.value.toList

/-- The option stands alone, or begins with two dashes and has a value. -/
def WellFormed (setting : Setting) : Prop :=
  setting = noCheck ∨ ∃ option value, setting = ofValue option value ∧
    option ≠ noCheck.option ∧ Text.begins option "--" = true

theorem wellFormed_ofValue {option : String} (hne : option ≠ noCheck.option)
    (hdashes : Text.begins option "--" = true) (value : String) :
    (ofValue option value).WellFormed := Or.inr ⟨option, value, rfl, hne, hdashes⟩

end Setting

/-- The options at the front of words, and the words behind them. -/
def readSettings : List String → List Setting × List String
  | [] => ([], [])
  | word :: rest =>
    if word = noCheck.option then
      (noCheck :: (readSettings rest).1, (readSettings rest).2)
    else if Text.begins word "--" then
      match rest with
      | [] => ([⟨word, none⟩], [])
      | value :: rest =>
        (.ofValue word value :: (readSettings rest).1, (readSettings rest).2)
    else ([], word :: rest)

/-- Words the first of which does not begin with two dashes hold no option. -/
theorem readSettings_of_not_begins {word : String} (h : Text.begins word "--" = false)
    (rest : List String) : readSettings (word :: rest) = ([], word :: rest) := by
  have hne : word ≠ noCheck.option := by
    rintro rfl
    exact absurd h (by decide)
  rw [readSettings.eq_def]
  simp only [if_neg hne, h, Bool.false_eq_true, if_false]

theorem readSettings_noCheck (rest : List String) :
    readSettings (noCheck.words ++ rest) =
      (noCheck :: (readSettings rest).1, (readSettings rest).2) := by
  rw [Setting.words, List.cons_append, readSettings.eq_def]
  simp only [if_true]
  rfl

theorem readSettings_ofValue {option : String} (hne : option ≠ noCheck.option)
    (hdashes : Text.begins option "--" = true) (value : String) (rest : List String) :
    readSettings ((Setting.ofValue option value).words ++ rest) =
      (.ofValue option value :: (readSettings rest).1, (readSettings rest).2) := by
  rw [Setting.words, List.cons_append, readSettings.eq_def]
  simp only [Setting.ofValue, if_neg hne, hdashes, if_true, Option.toList_some,
    List.singleton_append]

/-- Settings are read back as they were written, and then what is behind them is read. -/
theorem readSettings_words {settings : List Setting} (h : ∀ s ∈ settings, s.WellFormed)
    (rest : List String) : readSettings (settings.flatMap Setting.words ++ rest) =
      (settings ++ (readSettings rest).1, (readSettings rest).2) := by
  induction settings with
  | nil => rfl
  | cons s settings ih =>
      rcases List.forall_mem_cons.mp h with ⟨hs, hsettings⟩
      rw [List.flatMap_cons, List.append_assoc]
      rcases hs with rfl | ⟨option, value, rfl, hne, hdashes⟩
      · rw [readSettings_noCheck, ih hsettings]
        rfl
      · rw [readSettings_ofValue hne hdashes, ih hsettings]
        rfl

/-! ### The settings of a creation -/

/-- A setting for each entry of a dictionary. -/
def entrySettings (option : String) (dict : Dict String) : List Setting :=
  dict.entries.map fun entry => .ofValue option (entry.1 ++ "=" ++ entry.2)

/-- A setting with a value, if there is one. -/
def someSetting {α : Type} (option : String) (write : α → String) (value : Option α) :
    List Setting := (value.map fun value => Setting.ofValue option (write value)).toList

/-- The settings of limits. -/
def limitSettings (limits : Limits) : List Setting :=
  someSetting "--cpus" layout.write limits.cpus ++ someSetting "--memory" id limits.memory

/-- The settings of a health check with a line for the shell. -/
def lineSettings (check : Healthcheck) (line : String) : List Setting :=
  [.ofValue "--health-cmd" line] ++ someSetting "--health-interval" seconds check.interval ++
    someSetting "--health-timeout" seconds check.timeout ++
    someSetting "--health-retries" (fun n => toString n.toNat) check.retries

/-- The settings of a health check. -/
def healthSettings (check : Healthcheck) : List Setting :=
  match healthLine check.test with
  | none => [noCheck]
  | some line => if line.isEmpty then [] else lineSettings check line

/-- The settings that a container is created with. -/
def settings (b : Blueprint) : List Setting :=
  [.ofValue "--name" b.name] ++ entrySettings "--label" b.labels ++
    entrySettings "--env" b.environment ++ b.volumes.map (.ofValue "--volume") ++
    b.resources.elim [] limitSettings ++ b.healthcheck.elim [] healthSettings

section Written

variable {α : Type}

theorem words_entrySettings (option : String) (dict : Dict String) :
    (entrySettings option dict).flatMap Setting.words = entryOptions option dict := by
  rw [entrySettings, List.flatMap_map]
  rfl

theorem words_someSetting (option : String) (write : α → String) (value : Option α) :
    (someSetting option write value).flatMap Setting.words = valuedSome option write value := by
  cases value <;> rfl

theorem words_limitSettings (limits : Limits) :
    (limitSettings limits).flatMap Setting.words = limitOptions limits := by
  rw [limitSettings, List.flatMap_append, words_someSetting, words_someSetting, limitOptions]

theorem words_healthSettings (check : Healthcheck) :
    (healthSettings check).flatMap Setting.words = healthOptions check := by
  rw [healthSettings, healthOptions]
  cases healthLine check.test with
  | none => rfl
  | some line =>
      by_cases hempty : line.isEmpty = true
      · simp only [hempty, if_true, List.flatMap_nil]
      · simp only [if_neg hempty, lineSettings, List.flatMap_append, words_someSetting]
        rfl

/-- The words of a creation are those of its settings, the image and the command. -/
theorem createArguments_eq (b : Blueprint) : createArguments b =
    "create" :: ((settings b).flatMap Setting.words ++ b.image :: b.command) := by
  have hvolumes : (b.volumes.map (Setting.ofValue "--volume")).flatMap Setting.words =
      b.volumes.flatMap (valued "--volume") := by
    rw [List.flatMap_map]
    rfl
  have hresources : (b.resources.elim [] limitSettings).flatMap Setting.words =
      b.resources.elim [] limitOptions := by
    cases b.resources with
    | none => rfl
    | some limits => exact words_limitSettings limits
  have hcheck : (b.healthcheck.elim [] healthSettings).flatMap Setting.words =
      b.healthcheck.elim [] healthOptions := by
    cases b.healthcheck with
    | none => rfl
    | some check => exact words_healthSettings check
  simp only [settings, List.flatMap_append, words_entrySettings, hvolumes, hresources, hcheck,
    createArguments, List.append_assoc]
  rfl

end Written

/-! ### Reading them back -/

/-- The options of everything but health checks. -/
def plainOptions : List String := ["--name", "--label", "--env", "--volume", "--cpus", "--memory"]

theorem eq_of_mem_someSetting {α : Type} {option : String} {write : α → String}
    {value : Option α} {s : Setting} (h : s ∈ someSetting option write value) :
    ∃ text, s = .ofValue option text := by
  rcases Option.mem_toList.mp h |> Option.map_eq_some_iff.mp with ⟨v, _, rfl⟩
  exact ⟨write v, rfl⟩

/-- A setting has one of the plain options or belongs to the health check. -/
theorem settings_cases {b : Blueprint} {s : Setting} (h : s ∈ settings b) :
    (∃ option ∈ plainOptions, ∃ value, s = .ofValue option value) ∨
      ∃ check, b.healthcheck = some check ∧ s ∈ healthSettings check := by
  simp only [settings, List.mem_append, List.mem_singleton] at h
  rcases h with ((((rfl | h) | h) | h) | h) | h
  · exact Or.inl ⟨"--name", by decide, _, rfl⟩
  · rcases List.mem_map.mp h with ⟨_, _, rfl⟩
    exact Or.inl ⟨"--label", by decide, _, rfl⟩
  · rcases List.mem_map.mp h with ⟨_, _, rfl⟩
    exact Or.inl ⟨"--env", by decide, _, rfl⟩
  · rcases List.mem_map.mp h with ⟨_, _, rfl⟩
    exact Or.inl ⟨"--volume", by decide, _, rfl⟩
  · cases hresources : b.resources with
    | none =>
        rw [hresources] at h
        exact absurd h List.not_mem_nil
    | some limits =>
        rw [hresources] at h
        rcases List.mem_append.mp h with h | h
        · exact Or.inl ⟨"--cpus", by decide, eq_of_mem_someSetting h⟩
        · exact Or.inl ⟨"--memory", by decide, eq_of_mem_someSetting h⟩
  · cases hcheck : b.healthcheck with
    | none =>
        rw [hcheck] at h
        exact absurd h List.not_mem_nil
    | some check =>
        rw [hcheck] at h
        exact Or.inr ⟨check, rfl, h⟩

theorem wellFormed_of_mem_healthSettings {check : Healthcheck} :
    ∀ s ∈ healthSettings check, s.WellFormed := by
  have hsome : ∀ {α : Type} {option : String} {write : α → String} {value : Option α},
      option ≠ noCheck.option → Text.begins option "--" = true →
      ∀ s ∈ someSetting option write value, s.WellFormed := by
    intro α option write value hne hdashes s hs
    rcases eq_of_mem_someSetting hs with ⟨text, rfl⟩
    exact Setting.wellFormed_ofValue hne hdashes text
  intro s hs
  rw [healthSettings] at hs
  split at hs
  · exact Or.inl (List.mem_singleton.mp hs)
  · split at hs
    · exact absurd hs List.not_mem_nil
    · simp only [lineSettings, List.mem_append, List.mem_singleton] at hs
      rcases hs with ((rfl | hs) | hs) | hs
      · exact Setting.wellFormed_ofValue (by decide) (by decide) _
      · exact hsome (by decide) (by decide) s hs
      · exact hsome (by decide) (by decide) s hs
      · exact hsome (by decide) (by decide) s hs

theorem wellFormed_of_mem_settings {b : Blueprint} : ∀ s ∈ settings b, s.WellFormed := by
  have hplain : ∀ option ∈ plainOptions,
      option ≠ noCheck.option ∧ Text.begins option "--" = true := by decide
  intro s hs
  rcases settings_cases hs with ⟨option, hoption, value, rfl⟩ | ⟨check, _, hcheck⟩
  · rcases hplain option hoption with ⟨hne, hdashes⟩
    exact Setting.wellFormed_ofValue hne hdashes value
  · exact wellFormed_of_mem_healthSettings s hcheck

/-- What is read of the words of a creation: its settings, and what is read of the image and the
    command. -/
theorem readSettings_createArguments (b : Blueprint) :
    readSettings (createArguments b).tail =
      (settings b ++ (readSettings (b.image :: b.command)).1,
        (readSettings (b.image :: b.command)).2) := by
  rw [createArguments_eq]
  exact readSettings_words wellFormed_of_mem_settings _

end Fleet.Docker
