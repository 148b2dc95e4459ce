import Fleet.Json.Source
import Fleet.Proofs.Fingerprint
import Fleet.Proofs.Parsing

/-!
# Descriptions are read back

The writer of a description leaves fields out and the reader supplies them, and the two have to
agree field by field. There are three rules: a field is always written, or left out if it is
empty, or left out if it is absent. An empty list of words is not written, while limits of nothing
and settings of no deployment are, since these are there; and what is there must not be written as
`null`, which the reader takes for absent.

The first thing to see is that the second rule is the third, for a value that counts as absent when
it is empty (`whenTexts_eq`, `whenDict_eq`). Then all fields of all records are of one form, and it
is said once for each way of reading a field when it is read back (`required_eq`,
`optional_eq`, `nullable_eq`).

The second is that fields are found at all. Names are looked up in an object of which one only
knows that it has some of the fields in their order (`Under`). So no name is there twice, and the
reader, who refuses an object where one is, reads every field where it is (`fields_object`).

A dictionary is read entry by entry, each put in its place among those before it. Written in
order of the keys, every entry is put at the end.

Between values and texts stands a layer of which all that matters here is that it reads back what
it writes, for values that are not out of the ordinary (`Json.TextLayer.RoundTrips`). A reader that
rounds a number to the nearest double has this property. One that rounds on the way has it for most
limits only.

## Main definitions

* `Json.Under`: An object has some fields of a record, in their order.
* `Json.Recovers`: What is written is read back.
* `Json.TextLayer`: A layer between values and texts, and when it reads back what it writes.
* `Project.readText`: A project is read from a text.

## Theorems

* `Dict.ofList_entries`: A dictionary is read back from its entries.
* `Json.fields_object`: The fields of a record are the entries of the object.
* `Service.recovers`, `Project.recovers`: Services and projects are read back from their values.
* `Project.readText_writeText`: Projects with finite limits are read back from their texts.
-/

namespace Fleet

/-! ### Dictionaries -/

namespace Dict

variable {α : Type}

theorem place_of_lt {key : String} {value : α} {entries : List (String × α)}
    (h : ∀ e ∈ entries, e.1 < key) : place key value entries = entries ++ [(key, value)] := by
  induction entries with
  | nil => rfl
  | cons e entries ih =>
      rcases e with ⟨k, v⟩
      rcases List.forall_mem_cons.mp h with ⟨hk, hentries⟩
      rw [place, if_neg (String.lt_asymm hk), if_pos hk, ih hentries, List.cons_append]

/-- Entries in order of their keys are put behind those before them. -/
theorem entries_foldl_insert {entries : List (String × α)} (d : Dict α)
    (h : KeysIncrease (d.entries ++ entries)) :
    (entries.foldl (fun d e => d.insert e.1 e.2) d).entries = d.entries ++ entries := by
  induction entries generalizing d with
  | nil => exact (List.append_nil _).symm
  | cons e entries ih =>
      have hbelow : ∀ e' ∈ d.entries, e'.1 < e.1 := fun e' he' =>
        (List.pairwise_append.mp h).2.2 e' he' e List.mem_cons_self
      have hinsert : (d.insert e.1 e.2).entries = d.entries ++ [e] := place_of_lt hbelow
      rw [List.foldl_cons, ih, hinsert, List.append_assoc, List.singleton_append]
      rw [hinsert, List.append_assoc, List.singleton_append]
      exact h

/-- The dictionary of its entries. -/
theorem ofList_entries (d : Dict α) : ofList d.entries = d :=
  eq_of_entries (entries_foldl_insert empty d.increasing)

end Dict

/-! ### Fields of an object -/

namespace Json

/-- A list of texts is a field that may be left out. -/
theorem whenTexts_eq (name : String) (items : List String) :
    whenTexts name items = whenSome name texts (if items.isEmpty then none else some items) := by
  rw [whenTexts]
  split <;> rfl

/-- A dictionary is a field that may be left out. -/
theorem whenDict_eq {α : Type} (name : String) (write : α → Json) (dict : Dict α) :
    whenDict name write dict =
      whenSome name (ofDict write) (if dict.isEmpty then none else some dict) := by
  rw [whenDict]
  split <;> rfl

/-- Entries have names among those given, in their order, and no name twice. -/
def Under (names : List String) (entries : List (String × Json)) : Prop :=
  (entries.map (·.1)).Sublist names

theorem under_always (name : String) (value : Json) : Under [name] (always name value) :=
  List.Sublist.refl _

theorem under_whenSome {α : Type} (name : String) (write : α → Json) (value : Option α) :
    Under [name] (whenSome name write value) := by
  cases value with
  | none => exact List.nil_sublist _
  | some value => exact List.Sublist.refl _

section Fields

variable {names others : List String} {entries more : List (String × Json)}

theorem Under.append (h : Under names entries) (h' : Under others more) :
    Under (names ++ others) (entries ++ more) := by
  rw [Under, List.map_append]
  exact List.Sublist.append h h'

theorem lookup_of_not_mem {key : String} (h : key ∉ entries.map (·.1)) :
    Dict.lookup key entries = none := by
  induction entries with
  | nil => rfl
  | cons entry entries ih =>
      rw [List.map_cons, List.mem_cons, not_or] at h
      rw [Dict.lookup, if_neg fun heq => h.1 heq.symm, ih h.2]

/-- Where no name is twice, the only value under a name is found. -/
theorem single?_eq (key : String) (h : (entries.map (·.1)).Nodup) :
    single? key entries = some (Dict.lookup key entries) := by
  induction entries with
  | nil => rfl
  | cons entry entries ih =>
      rw [List.map_cons, List.nodup_cons] at h
      rw [single?, ih h.2, Dict.lookup]
      by_cases hkey : entry.1 = key
      · rw [if_pos hkey, lookup_of_not_mem (hkey ▸ h.1)]
        simp only [Option.bind_eq_bind, Option.bind_some, if_pos hkey]
        rfl
      · simp only [Option.bind_eq_bind, Option.bind_some, if_neg hkey]
        rfl

theorem lookup_map_pair {α : Type} (f : String → α) {name : String} (h : name ∈ names) :
    (names.map fun name => (name, f name)).lookup name = some (f name) := by
  induction names with
  | nil => exact absurd h List.not_mem_nil
  | cons first names ih =>
      rw [List.map_cons, List.lookup_cons]
      by_cases hfirst : name = first
      · rw [hfirst, beq_self_eq_true]
      · rw [beq_eq_false_iff_ne.mpr hfirst]
        exact ih ((List.mem_cons.mp h).resolve_left hfirst)

theorem mapM_eq_some {α β : Type} {f : α → Option β} {g : α → β} {l : List α}
    (h : ∀ x ∈ l, f x = some (g x)) : l.mapM f = some (l.map g) := by
  induction l with
  | nil => rfl
  | cons x l ih =>
      rcases List.forall_mem_cons.mp h with ⟨hx, hl⟩
      rw [List.mapM_cons, hx, ih hl]
      rfl

/-- The fields of a record are the entries of the object. -/
theorem fields_object (hunder : Under names entries) (hnodup : names.Nodup) :
    ∃ fields, source.fields names (object entries) = some fields ∧
      ∀ name ∈ names, fields name = Dict.lookup name entries := by
  have hentries : (entries.map (·.1)).Nodup := hnodup.sublist hunder
  have hfound : names.mapM (fun name => (single? name entries).map (name, ·)) =
      some (names.map fun name => (name, Dict.lookup name entries)) :=
    mapM_eq_some fun name _ => by rw [single?_eq name hentries, Option.map_some]
  refine ⟨fun name => ((names.map fun name => (name, Dict.lookup name entries)).lookup name).join,
    ?_, fun name hname => ?_⟩
  · change recordFields names (object entries) = _
    rw [recordFields, hfound]
    rfl
  · simp only [lookup_map_pair _ hname]
    rfl

end Fields

/-! ### What is read of a field -/

variable {α : Type}

/-- What is written is read back. -/
def Recovers (write : α → Json) (read : Json → Option α) : Prop :=
  ∀ value, read (write value) = some value

section Reading

variable {write : α → Json} {read : Json → Option α} {fields : String → Option Json}
  {name : String}

theorem required_eq (h : Recovers write read) {value : α}
    (hfield : fields name = some (write value)) :
    Source.required fields name read = some value := by
  rw [Source.required, hfield]
  exact h value

/-- A field with a default is left out only if it is the default. -/
theorem optional_eq (h : Recovers write read) {value default : α} {absent : Bool}
    (hdefault : absent = true → value = default)
    (hfield : fields name = (if absent then none else some value).map write) :
    Source.optional fields name read default = some value := by
  rw [Source.optional, hfield]
  cases absent with
  | true => exact congrArg some (hdefault rfl).symm
  | false => exact h value

/-- A field with a default may also be there always. -/
theorem optional_eq_of_always (h : Recovers write read) {value default : α}
    (hfield : fields name = some (write value)) :
    Source.optional fields name read default = some value := by
  have habsent : false = true → value = default := nofun
  exact optional_eq h habsent hfield

/-- A field that may be absent is left out, and nothing that is there is written as `null`. -/
theorem nullable_eq (h : Recovers write read) (hnull : ∀ value, write value ≠ null)
    {value : Option α} (hfield : fields name = value.map write) :
    source.nullable fields name read = some value := by
  rw [Source.nullable, hfield]
  cases value with
  | none => rfl
  | some value =>
      have hpresent : source.present (write value) = some (some (write value)) := by
        have hne := hnull value
        generalize write value = v at hne
        cases v with
        | null => exact absurd rfl hne
        | _ => rfl
      simp only [Option.map_some, hpresent, Option.bind_eq_bind, Option.bind_some, h value]
      rfl

end Reading

theorem recovers_text : Recovers text source.text := fun _ => rfl

theorem recovers_number : Recovers real source.number := fun _ => rfl

theorem natural_eq {bound n : Nat} (h : n < bound) :
    source.natural bound (integer n) = some n := by
  change (if (0 : Int) ≤ n ∧ (n : Int) < bound then some (n : Int).toNat else none) = some n
  rw [if_pos ⟨Int.natCast_nonneg n, Int.ofNat_lt.mpr h⟩, Int.toNat_natCast]

theorem recovers_natural32 : Recovers ofUInt32 source.natural32 := fun n => by
  rw [Source.natural32, ofUInt32, natural_eq (by rw [Nat.pow_eq]; exact n.toNat_lt)]
  exact congrArg some UInt32.ofNat_toNat

theorem recovers_natural64 : Recovers ofUInt64 source.natural64 := fun n => by
  rw [Source.natural64, ofUInt64, natural_eq (by rw [Nat.pow_eq]; exact n.toNat_lt)]
  exact congrArg some UInt64.ofNat_toNat

theorem Recovers.list {write : α → Json} {read : Json → Option α} (h : Recovers write read) :
    Recovers (fun items => list (items.map write)) (source.listOf read) := fun items => by
  have hitems : (items.map write).mapM read = some items := by
    rw [List.mapM_map]
    exact (mapM_eq_some fun item _ => h item).trans (congrArg some (List.map_id items))
  exact hitems

theorem recovers_texts : Recovers texts source.texts := recovers_text.list

theorem Recovers.dict {write : α → Json} {read : Json → Option α} (h : Recovers write read) :
    Recovers (ofDict write) (source.dict read) := fun dict => by
  have hentry : ∀ entry : String × α,
      (read (write entry.2)).bind (fun item => some (entry.1, item)) = some entry :=
    fun entry => by rw [h, Option.bind_some]
  have hentries : (dict.entries.map fun entry => (entry.1, write entry.2)).mapM
      (fun entry : String × Json => (read entry.2).bind fun item => some (entry.1, item)) =
        some dict.entries := by
    rw [List.mapM_map]
    exact (mapM_eq_some (g := id) fun entry _ => hentry entry).trans
      (congrArg some (List.map_id _))
  have hread : source.dict read (ofDict write dict) =
      ((dict.entries.map fun entry => (entry.1, write entry.2)).mapM
        (fun entry : String × Json => (read entry.2).bind fun item => some (entry.1, item))).bind
          fun entries => some (Dict.ofList entries) := rfl
  rw [hread, hentries, Option.bind_some, Dict.ofList_entries]

end Json

open Json

/-! ### Records -/

theorem Limits.recovers : Recovers toJson (read source) := fun limits => by
  have hunder : Under ["cpus", "memory"]
      (whenSome "cpus" real limits.cpus ++ whenSome "memory" text limits.memory) :=
    (under_whenSome _ _ _).append (under_whenSome _ _ _)
  rcases fields_object hunder (by decide) with ⟨fields, hfields, hlookup⟩
  simp only [List.forall_mem_cons, List.not_mem_nil, IsEmpty.forall_iff, implies_true, and_true,
    lookup_append, lookup_whenSome, String.reduceEq, if_true, if_false, Option.or_none,
    Option.none_or] at hlookup
  rcases hlookup with ⟨hcpus, hmemory⟩
  simp only [read, toJson, hfields, nullable_eq recovers_number (fun _ => nofun) hcpus,
    nullable_eq recovers_text (fun _ => nofun) hmemory, Option.bind_eq_bind, Option.bind_some]
  rfl

theorem Healthcheck.recovers : Recovers toJson (read source) := fun check => by
  have hunder : Under ["test", "interval", "timeout", "retries"]
      (always "test" (.texts check.test) ++ whenSome "interval" .ofUInt64 check.interval ++
        whenSome "timeout" .ofUInt64 check.timeout ++ whenSome "retries" .ofUInt32 check.retries) :=
    (((under_always _ _).append (under_whenSome _ _ _)).append (under_whenSome _ _ _)).append
      (under_whenSome _ _ _)
  rcases fields_object hunder (by decide) with ⟨fields, hfields, hlookup⟩
  simp only [List.forall_mem_cons, List.not_mem_nil, IsEmpty.forall_iff, implies_true, and_true,
    lookup_append, lookup_always, lookup_whenSome, String.reduceEq, if_true, if_false,
    Option.or_none, Option.none_or] at hlookup
  rcases hlookup with ⟨htest, hinterval, htimeout, hretries⟩
  simp only [read, toJson, hfields, required_eq recovers_texts htest,
    nullable_eq recovers_natural64 (fun _ => nofun) hinterval,
    nullable_eq recovers_natural64 (fun _ => nofun) htimeout,
    nullable_eq recovers_natural32 (fun _ => nofun) hretries, Option.bind_eq_bind, Option.bind_some]
  rfl

theorem Condition.recovers : Recovers toJson (readDependency source) := fun condition => by
  cases condition <;> rfl

theorem Strategy.recovers : Recovers toJson (read source) := fun strategy => by
  cases strategy
  rfl

theorem Deployment.recovers : Recovers toJson (read source) := fun deployment => by
  have hunder : Under ["replicas"] (whenSome "replicas" .ofUInt32 deployment.replicas) :=
    under_whenSome _ _ _
  rcases fields_object hunder (by decide) with ⟨fields, hfields, hlookup⟩
  simp only [List.forall_mem_singleton, lookup_whenSome, if_true] at hlookup
  simp only [read, toJson, hfields, nullable_eq recovers_natural32 (fun _ => nofun) hlookup,
    Option.bind_eq_bind, Option.bind_some]
  rfl

namespace Service

/-- The entries of a service. -/
def entries (s : Service) : List (String × Json) :=
  always "name" (.text s.name) ++ always "image" (.text s.image) ++
    whenTexts "command" s.command ++ whenDict "environment" .text s.environment ++
    whenTexts "volumes" s.volumes ++ whenTexts "networks" s.networks ++
    whenDict "depends_on" Condition.toJson s.dependsOn ++
    whenSome "healthcheck" Healthcheck.toJson s.healthcheck ++
    whenSome "resources" Limits.toJson s.resources ++ always "scale" (.ofUInt32 s.scale) ++
    whenSome "deploy" Deployment.toJson s.deploy ++
    whenSome "x-lifecycle" Strategy.toJson s.lifecycle

theorem under_entries (s : Service) : Under fieldNames s.entries := by
  change Under (["name"] ++ ["image"] ++ ["command"] ++ ["environment"] ++ ["volumes"] ++
    ["networks"] ++ ["depends_on"] ++ ["healthcheck"] ++ ["resources"] ++ ["scale"] ++ ["deploy"] ++
    ["x-lifecycle"]) _
  simp only [entries, whenTexts_eq, whenDict_eq]
  have hnames : Under (["name"] ++ ["image"]) _ :=
    (under_always _ (.text s.name)).append (under_always _ (.text s.image))
  exact (((((((((hnames.append (under_whenSome _ _ _)).append (under_whenSome _ _ _)).append
    (under_whenSome _ _ _)).append (under_whenSome _ _ _)).append (under_whenSome _ _ _)).append
    (under_whenSome _ _ _)).append (under_whenSome _ _ _)).append (under_always _ _)).append
    (under_whenSome _ _ _)).append (under_whenSome _ _ _)

theorem recovers : Recovers toJson (read source) := fun s => by
  rcases fields_object s.under_entries (by decide) with ⟨fields, hfields, hlookup⟩
  simp only [fieldNames, entries, whenTexts_eq, whenDict_eq, List.forall_mem_cons,
    List.not_mem_nil, IsEmpty.forall_iff, implies_true, and_true, lookup_append, lookup_always,
    lookup_whenSome, String.reduceEq, if_true, if_false, Option.or_none, Option.none_or] at hlookup
  rcases hlookup with ⟨hname, himage, hcommand, henvironment, hvolumes, hnetworks, hdependsOn,
    hhealthcheck, hresources, hscale, hdeploy, hlifecycle⟩
  have htexts : ∀ items : List String, items.isEmpty = true → items = [] := fun _ =>
    List.isEmpty_iff.mp
  have hdict : ∀ {α : Type} (dict : Dict α), dict.isEmpty = true → dict = Dict.empty :=
    fun _ h => Dict.eq_of_entries (List.isEmpty_iff.mp h)
  have hvalue : source.fields fieldNames (toJson s) = some fields := hfields
  simp only [read, hvalue, required_eq recovers_text hname,
    optional_eq_of_always recovers_text himage,
    optional_eq recovers_texts (htexts s.command) hcommand,
    optional_eq recovers_text.dict (hdict s.environment) henvironment,
    optional_eq recovers_texts (htexts s.volumes) hvolumes,
    optional_eq recovers_texts (htexts s.networks) hnetworks,
    optional_eq Condition.recovers.dict (hdict s.dependsOn) hdependsOn,
    nullable_eq Healthcheck.recovers (fun _ => nofun) hhealthcheck,
    nullable_eq Limits.recovers (fun _ => nofun) hresources,
    optional_eq_of_always recovers_natural32 hscale,
    nullable_eq Deployment.recovers (fun _ => nofun) hdeploy,
    nullable_eq Strategy.recovers (fun _ => nofun) hlifecycle, Option.bind_eq_bind,
    Option.bind_some]
  rfl

end Service

/-- A project is read back from the value that is written for it. -/
theorem Project.recovers : Recovers toJson (read source) := fun project => by
  have hunder : Under ["name", "services"]
      [("name", text project.name), ("services", list (project.services.map (·.toJson)))] :=
    List.Sublist.refl _
  rcases fields_object hunder (by decide) with ⟨fields, hfields, hlookup⟩
  have hname : fields "name" = some (text project.name) := hlookup _ (by decide)
  have hservices : fields "services" = some (list (project.services.map (·.toJson))) :=
    hlookup _ (by decide)
  simp only [read, toJson, hfields, required_eq recovers_text hname,
    optional_eq_of_always Service.recovers.list hservices, Option.bind_eq_bind,
    Option.bind_some]
  rfl

/-! ### Texts -/

namespace Json

variable {α : Type} {depth : Nat}

theorem portable_whenTexts (name : String) (items : List String) :
    ∀ entry ∈ whenTexts name items, entry.2.Portable (depth + 1) := by
  rw [whenTexts_eq]
  exact portable_whenSome name fun items _ => portable_texts items

theorem portable_whenDict {write : α → Json} (h : ∀ value, (write value).Portable depth)
    (name : String) (dict : Dict α) :
    ∀ entry ∈ whenDict name write dict, entry.2.Portable (depth + 1) := by
  rw [whenDict_eq]
  exact portable_whenSome name fun dict _ => portable_ofDict h dict

end Json

theorem Service.portable_toJson {s : Service} (depth : Nat) (h : s.FiniteLimits) :
    s.toJson.Portable (depth + 3) := by
  refine .object ?_
  simp only [List.forall_mem_append]
  refine ⟨⟨⟨⟨⟨⟨⟨⟨⟨⟨⟨portable_always _ (.text _), portable_always _ (.text _)⟩,
    portable_whenTexts _ _⟩, portable_whenDict (fun _ => .text _) _ _⟩, portable_whenTexts _ _⟩,
    portable_whenTexts _ _⟩, portable_whenDict (Condition.portable_toJson depth) _ _⟩,
    portable_whenSome _ fun check _ => check.portable_toJson depth⟩,
    portable_whenSome _ fun limits hlimits => limits.portable_toJson _ (h limits hlimits)⟩,
    portable_always _ (portable_ofUInt32 _)⟩, portable_whenSome _ fun deployment _ => ?_⟩,
    portable_whenSome _ fun strategy _ => ?_⟩
  · exact .object (portable_whenSome _ fun _ _ => portable_ofUInt32 _)
  · cases strategy
    exact .text _

namespace Json

/-- A layer between values and texts. -/
structure TextLayer where
  write : Json → String
  read : String → Option Json

/-- Strings, integers of 64 bits and finite doubles are read back as they were written, and so is
    what consists of them, as long as a reader with a stack of 128 frames can take it. -/
def TextLayer.RoundTrips (layer : TextLayer) : Prop :=
  ∀ v : Json, v.Portable 127 → layer.read (layer.write v) = some v

/-- The layer that rounds a number once. -/
def TextLayer.rounding : TextLayer := ⟨render, parseWith Numeral.nearest?⟩

theorem TextLayer.roundTrips_rounding : rounding.RoundTrips := fun _ h => h.clean.parse_render

end Json

namespace Project

/-- If all limits are finite, the value of a project is portable. -/
theorem portable_toJson {project : Project} (depth : Nat)
    (h : ∀ s ∈ project.services, s.FiniteLimits) : project.toJson.Portable (depth + 5) := by
  refine .object ?_
  rw [List.forall_mem_cons, List.forall_mem_singleton]
  refine ⟨.text _, .list fun item hitem => ?_⟩
  rcases List.mem_map.mp hitem with ⟨s, hs, rfl⟩
  exact s.portable_toJson depth (h s hs)

/-- A project as a text. -/
def writeText (layer : Json.TextLayer) (project : Project) : String := layer.write project.toJson

/-- A project is read from a text. -/
def readText (layer : Json.TextLayer) (s : String) : Option Project :=
  (layer.read s).bind (read Json.source)

/-- A project whose limits are finite is read back from its text, and is then written as the same
    text, whatever the layer of texts, if it reads back what it writes. -/
theorem readText_writeText {layer : Json.TextLayer} (hlayer : layer.RoundTrips)
    {project : Project} (h : ∀ s ∈ project.services, s.FiniteLimits) :
    readText layer (writeText layer project) = some project ∧
      (readText layer (writeText layer project)).map (writeText layer) =
        some (writeText layer project) := by
  have hread : readText layer (writeText layer project) = some project := by
    rw [readText, writeText, hlayer _ (portable_toJson 122 h), Option.bind_some]
    exact recovers project
  refine ⟨hread, ?_⟩
  rw [hread, Option.map_some]

end Project

/-! ### Fields that are empty and fields that are absent -/

namespace Sample

/-- A service with every field, some of them as empty as they can be without being absent. -/
def thorough : Service where
  name := "web \"1\""
  image := ""
  command := ["", "\t\u0001"]
  environment := Dict.ofList [("B", ""), ("A", "\\")]
  volumes := []
  networks := ["front"]
  dependsOn := Dict.ofList [("db", .healthy), ("job", .completed), ("cache", .started)]
  healthcheck := some ⟨[], some 0, none, some 4294967295⟩
  resources := some ⟨some ⟨0x3FB999999999999A⟩, none⟩
  scale := 0
  deploy := some ⟨none⟩
  lifecycle := some .forceRecreate

/-- Two services of which one has empty limits and the other has a limit, and two that differ in
    whether there are settings of a deployment. -/
def intricate : Project :=
  ⟨"demo", [thorough, { thorough with resources := some ⟨none, none⟩, deploy := none }]⟩

end Sample

/-- An empty record is not taken for an absent one. -/
theorem Project.readText_writeText_intricate :
    Json.TextLayer.rounding.RoundTrips ∧ (∀ s ∈ Sample.intricate.services, s.FiniteLimits) ∧
      Project.readText .rounding (Project.writeText .rounding Sample.intricate) =
        some Sample.intricate ∧
      (Project.readText .rounding (Project.writeText .rounding Sample.intricate)).map
        (Project.writeText .rounding) = some (Project.writeText .rounding Sample.intricate) := by
  have hfinite : ∀ s ∈ Sample.intricate.services, s.FiniteLimits := by
    intro s hs limits hlimits cpus hcpus
    rcases List.mem_pair.mp hs with rfl | rfl
    · cases hlimits
      cases hcpus
      decide
    · cases hlimits
      cases hcpus
  exact ⟨TextLayer.roundTrips_rounding, hfinite,
    readText_writeText TextLayer.roundTrips_rounding hfinite⟩

end Fleet
