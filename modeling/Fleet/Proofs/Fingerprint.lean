import Fleet.Fingerprint
import Fleet.Proofs.Encoding
import Fleet.Proofs.Framing

/-!
# What fingerprints see

A fingerprint is the digest of the text of a JSON value, so whether it sees a difference between
two services is a matter of three steps: the service gives the value, the value its text, and the
text its digest. The text determines the value as long as the numbers in it are finite, and
nothing but the number of processors is a number that might not be. The value in turn determines
the nine fields that it is made of. Fields that are always there stand in their places, and those
that may be left out, inside limits and health checks, are found again by their names
(`Dict.lookup`), which differ.

Only the digest can bring texts together, and then the two are a collision (`Sha256.Collide`) that
one can write down. Nothing is said about how hard collisions are to find.

## Main definitions

* `Service.Alike`: Two services agree on what defines their containers.
* `Service.FiniteLimits`: The number of processors is finite if there is one.
* `Sha256.Collide`: Two messages with one digest.

## Theorems

* `Sha256.hexDigest_inj`: Hexadecimal digits tell digests apart.
* `Limits.toJson_injective`, `Healthcheck.toJson_injective`: Records with fields left out are
  determined by what is written.
* `Service.definition_inj`: The definition determines the nine fields, and no others.
* `Service.fingerprint_eq_iff`: Fingerprints see the fields that define containers, and no others.
-/

namespace Fleet

/-! ### Digests -/

namespace Sha256

/-- Two messages with one digest. -/
def Collide (a b : List UInt8) : Prop := a ≠ b ∧ digest a = digest b

theorem digitChar_injective :
    ∀ m < 16, ∀ n < 16, Nat.digitChar m = Nat.digitChar n → m = n := by decide

theorem hexByte_injective {a b : UInt8} (h : hexByte a = hexByte b) : a = b := by
  have ha := a.toNat_lt
  have hb := b.toNat_lt
  rcases List.cons.inj h with ⟨hhigh, htail⟩
  have hdiv := digitChar_injective _ (by omega) _ (by omega) hhigh
  have hmod := digitChar_injective _ (by omega) _ (by omega) (List.cons.inj htail).1
  exact UInt8.toNat_inj.mp (by omega)

theorem hexBytes_injective {as bs : List UInt8} (h : as.flatMap hexByte = bs.flatMap hexByte) :
    as = bs := by
  induction as generalizing bs with
  | nil =>
      cases bs with
      | nil => rfl
      | cons b bs => exact absurd h (List.cons_ne_nil _ _).symm
  | cons a as ih =>
      cases bs with
      | nil => exact absurd h (List.cons_ne_nil _ _)
      | cons b bs =>
          rw [List.flatMap_cons, List.flatMap_cons] at h
          rcases List.append_inj h rfl with ⟨hbyte, hbytes⟩
          rw [hexByte_injective hbyte, ih hbytes]

/-- Hexadecimal digits tell digests apart. -/
theorem hexDigest_inj {a b : List UInt8} : hexDigest a = hexDigest b ↔ digest a = digest b :=
  ⟨fun h => hexBytes_injective (String.ofList_injective h),
    fun h => by rw [hexDigest, hexDigest, h]⟩

end Sha256

/-! ### Fields that may be left out -/

namespace Json

variable {α : Type}

theorem lookup_append (key : String) (entries others : List (String × α)) :
    Dict.lookup key (entries ++ others) =
      (Dict.lookup key entries).or (Dict.lookup key others) := by
  induction entries with
  | nil => rfl
  | cons entry entries ih =>
      rcases entry with ⟨name, value⟩
      rw [List.cons_append, Dict.lookup, Dict.lookup]
      split
      · rfl
      · exact ih

theorem lookup_always (key name : String) (value : Json) :
    Dict.lookup key (always name value) = if name = key then some value else none := rfl

theorem lookup_whenSome (key name : String) (write : α → Json) (value : Option α) :
    Dict.lookup key (whenSome name write value) = if name = key then value.map write else none := by
  cases value with
  | none => exact (ite_self _).symm
  | some value => rfl

/-- The fields under a key agree if the objects do. -/
theorem lookup_congr {entries others : List (String × Json)} (h : object entries = object others)
    (key : String) : Dict.lookup key entries = Dict.lookup key others := by
  rw [object.inj h]

theorem text_injective : Function.Injective text := fun _ _ => text.inj

theorem real_injective : Function.Injective real := fun _ _ => real.inj

theorem ofUInt32_injective : Function.Injective ofUInt32 := fun _ _ h =>
  UInt32.toNat_inj.mp (Int.ofNat.inj (integer.inj h))

theorem ofUInt64_injective : Function.Injective ofUInt64 := fun _ _ h =>
  UInt64.toNat_inj.mp (Int.ofNat.inj (integer.inj h))

theorem texts_injective : Function.Injective texts := fun _ _ h =>
  List.map_injective_iff.mpr text_injective (list.inj h)

theorem ofDict_injective {write : α → Json} (h : Function.Injective write) :
    Function.Injective (ofDict write) := fun d e hobject => by
  have hentry : Function.Injective fun entry : String × α => (entry.1, write entry.2) := by
    intro entry other heq
    rw [Prod.mk.injEq] at heq
    exact Prod.ext heq.1 (h heq.2)
  exact Dict.eq_of_entries (List.map_injective_iff.mpr hentry (object.inj hobject))

/-- A value is not taken for an absent one if it is not written as `null`. -/
theorem orNull_injective {write : α → Json} (h : Function.Injective write)
    (hnull : ∀ value, write value ≠ null) : Function.Injective (orNull write) := by
  intro o o' heq
  cases o with
  | none =>
      cases o' with
      | none => rfl
      | some value => exact absurd heq.symm (hnull value)
  | some value =>
      cases o' with
      | none => exact absurd heq (hnull value)
      | some value' => rw [h heq]

end Json

open Json

/-- Limits are determined by what is written. -/
theorem Limits.toJson_injective : Function.Injective Limits.toJson := by
  rintro ⟨cpus, memory⟩ ⟨cpus', memory'⟩ h
  have hcpus := lookup_congr h "cpus"
  have hmemory := lookup_congr h "memory"
  simp only [lookup_append, lookup_whenSome, String.reduceEq, if_true, if_false, Option.or_none,
    Option.none_or] at hcpus hmemory
  rw [Option.map_injective real_injective hcpus, Option.map_injective text_injective hmemory]

/-- Health checks are determined by what is written. -/
theorem Healthcheck.toJson_injective : Function.Injective Healthcheck.toJson := by
  rintro ⟨test, interval, timeout, retries⟩ ⟨test', interval', timeout', retries'⟩ h
  have htest := lookup_congr h "test"
  have hinterval := lookup_congr h "interval"
  have htimeout := lookup_congr h "timeout"
  have hretries := lookup_congr h "retries"
  simp only [lookup_append, lookup_always, lookup_whenSome, String.reduceEq, if_true, if_false,
    Option.or_none, Option.none_or] at htest hinterval htimeout hretries
  rw [texts_injective (Option.some.inj htest),
    Option.map_injective ofUInt64_injective hinterval,
    Option.map_injective ofUInt64_injective htimeout,
    Option.map_injective ofUInt32_injective hretries]

theorem Condition.name_injective : Function.Injective Condition.name := by
  intro c d h
  cases c <;> cases d <;> first | rfl | exact absurd h (by decide)

theorem Condition.toJson_injective : Function.Injective Condition.toJson := by
  intro c d h
  have hcondition := lookup_congr h "condition"
  exact name_injective (text_injective (Option.some.inj hcondition))

/-! ### Definitions -/

/-- The number of processors is finite if there is one. -/
def Limits.Finite (limits : Limits) : Prop := ∀ cpus ∈ limits.cpus, cpus.isFinite = true

namespace Service

/-- The number of processors is finite if there is one. -/
def FiniteLimits (service : Service) : Prop := ∀ limits ∈ service.resources, limits.Finite

/-- Two services agree on what defines their containers. -/
structure Alike (s t : Service) : Prop where
  name : s.name = t.name
  image : s.image = t.image
  command : s.command = t.command
  environment : s.environment = t.environment
  volumes : s.volumes = t.volumes
  networks : s.networks = t.networks
  -- The names and what each has to have reached.
  dependsOn : s.dependsOn = t.dependsOn
  healthcheck : s.healthcheck = t.healthcheck
  resources : s.resources = t.resources

/-- The definition determines the nine fields, and is determined by them. -/
theorem definition_inj {s t : Service} : s.definition = t.definition ↔ Alike s t := by
  constructor
  · intro h
    simp only [definition, object.injEq, List.cons.injEq, Prod.mk.injEq, true_and, and_true] at h
    rcases h with ⟨hname, himage, hcommand, henvironment, hvolumes, hnetworks, hdependsOn,
      hhealthcheck, hresources⟩
    refine ⟨text.inj hname, text.inj himage, texts_injective hcommand,
      ofDict_injective text_injective henvironment, texts_injective hvolumes,
      texts_injective hnetworks, ofDict_injective Condition.toJson_injective hdependsOn,
      orNull_injective Healthcheck.toJson_injective ?_ hhealthcheck,
      orNull_injective Limits.toJson_injective ?_ hresources⟩
    · exact fun _ hnull => nomatch hnull
    · exact fun _ hnull => nomatch hnull
  · intro h
    rw [definition, definition, h.name, h.image, h.command, h.environment, h.volumes, h.networks,
      h.dependsOn, h.healthcheck, h.resources]

end Service

/-! ### Portable definitions -/

namespace Json

variable {α : Type} {write : α → Json} {depth : Nat}

theorem portable_ofUInt32 (n : UInt32) : (ofUInt32 n).Portable depth := by
  have hn := n.toNat_lt
  exact .integer (by omega) (by omega)

theorem portable_ofUInt64 (n : UInt64) : (ofUInt64 n).Portable depth := by
  have hn := n.toNat_lt
  exact .integer (by omega) (by omega)

theorem portable_texts (items : List String) : (texts items).Portable (depth + 1) := by
  refine .list fun item hitem => ?_
  rcases List.mem_map.mp hitem with ⟨s, _, rfl⟩
  exact .text s

theorem portable_ofDict (h : ∀ value, (write value).Portable depth) (dict : Dict α) :
    (ofDict write dict).Portable (depth + 1) := by
  refine .object fun entry hentry => ?_
  rcases List.mem_map.mp hentry with ⟨source, _, rfl⟩
  exact h source.2

theorem portable_orNull {value : Option α} (h : ∀ v ∈ value, (write v).Portable depth) :
    (orNull write value).Portable depth := by
  cases value with
  | none => exact .null
  | some v => exact h v rfl

theorem portable_always {value : Json} (name : String) (h : value.Portable depth) :
    ∀ entry ∈ always name value, entry.2.Portable depth := by
  rw [always, List.forall_mem_singleton]
  exact h

theorem portable_whenSome {value : Option α} (name : String)
    (h : ∀ v ∈ value, (write v).Portable depth) :
    ∀ entry ∈ whenSome name write value, entry.2.Portable depth := by
  cases value with
  | none => exact fun _ hentry => absurd hentry List.not_mem_nil
  | some v =>
      rw [whenSome, List.forall_mem_singleton]
      exact h v rfl

end Json

theorem Limits.portable_toJson {limits : Limits} (depth : Nat) (h : limits.Finite) :
    limits.toJson.Portable (depth + 1) :=
  .object (List.forall_mem_append.mpr
    ⟨portable_whenSome _ fun cpus hcpus => .real (h cpus hcpus),
      portable_whenSome _ fun memory _ => .text memory⟩)

theorem Healthcheck.portable_toJson (depth : Nat) (check : Healthcheck) :
    check.toJson.Portable (depth + 2) := by
  refine .object ?_
  rw [List.forall_mem_append, List.forall_mem_append, List.forall_mem_append]
  exact ⟨⟨⟨portable_always _ (portable_texts _), portable_whenSome _ fun _ _ => portable_ofUInt64 _⟩,
    portable_whenSome _ fun _ _ => portable_ofUInt64 _⟩,
    portable_whenSome _ fun _ _ => portable_ofUInt32 _⟩

theorem Condition.portable_toJson (depth : Nat) (condition : Condition) :
    condition.toJson.Portable (depth + 1) :=
  .object (List.forall_mem_singleton.mpr (.text _))

namespace Service

variable {s t : Service}

/-- If its limits are finite, the definition of a service is portable. -/
theorem portable_definition (depth : Nat) (h : s.FiniteLimits) :
    s.definition.Portable (depth + 3) := by
  refine .object ?_
  simp only [List.forall_mem_cons]
  exact ⟨.text _, .text _, portable_texts _, portable_ofDict (fun _ => .text _) _,
    portable_texts _, portable_texts _, portable_ofDict (Condition.portable_toJson depth) _,
    portable_orNull fun check _ => check.portable_toJson depth,
    portable_orNull fun limits hlimits => limits.portable_toJson _ (h limits hlimits),
    fun _ hentry => absurd hentry List.not_mem_nil⟩

/-- The bytes of the definition determine the nine fields. -/
theorem encode_definition_inj (hs : s.FiniteLimits) (ht : t.FiniteLimits) :
    Text.encode s.definition.render = Text.encode t.definition.render ↔ Alike s t := by
  rw [← definition_inj]
  constructor
  · intro h
    have hrender := congrArg Text.decodeLossy h
    rw [Text.decodeLossy_encode, Text.decodeLossy_encode] at hrender
    exact (portable_definition 0 hs).clean.render_injective (portable_definition 0 ht).clean hrender
  · intro h
    rw [h]

/-- Two services whose processors are finite give the digest the same bytes if and only if they
    agree on what defines their containers. Their fingerprints are equal then, and otherwise only
    if the bytes collide. How many containers there are to be, and whether they are to be replaced
    anyway, is never seen. -/
theorem fingerprint_eq_iff (hs : s.FiniteLimits) (ht : t.FiniteLimits) :
    (Text.encode s.definition.render = Text.encode t.definition.render ↔ Alike s t) ∧
      (s.fingerprint = t.fingerprint ↔ Alike s t ∨
        Sha256.Collide (Text.encode s.definition.render) (Text.encode t.definition.render)) ∧
      ∀ scale deploy lifecycle,
        ({ s with scale := scale, deploy := deploy, lifecycle := lifecycle }).definition.render =
          s.definition.render := by
  have hbytes := encode_definition_inj hs ht
  refine ⟨hbytes, ?_, fun _ _ _ => rfl⟩
  rw [fingerprint, fingerprint, Sha256.hexDigest_inj, ← hbytes, Sha256.Collide]
  constructor
  · intro hdigest
    by_cases hsame : Text.encode s.definition.render = Text.encode t.definition.render
    · exact Or.inl hsame
    · exact Or.inr ⟨hsame, hdigest⟩
  · rintro (hsame | ⟨_, hdigest⟩)
    · rw [hsame]
    · exact hdigest

/-- A service with a limited number of processors. -/
def limited (cpus : Binary64) : Service :=
  { plain "web" "nginx" with resources := some ⟨some cpus, none⟩ }

theorem finiteLimits_limited (cpus : Binary64) (h : cpus.isFinite = true) :
    (limited cpus).FiniteLimits := by
  rintro _ ⟨⟩ _ ⟨⟩
  exact h

/-- Zero and negative zero are different limits: only a collision gives them one fingerprint. -/
theorem fingerprint_zero_eq_iff :
    (limited (.ofMagnitude false 0)).FiniteLimits ∧ (limited (.ofMagnitude true 0)).FiniteLimits ∧
      Text.encode (limited (.ofMagnitude false 0)).definition.render ≠
        Text.encode (limited (.ofMagnitude true 0)).definition.render ∧
      ((limited (.ofMagnitude false 0)).fingerprint = (limited (.ofMagnitude true 0)).fingerprint ↔
        Sha256.Collide (Text.encode (limited (.ofMagnitude false 0)).definition.render)
          (Text.encode (limited (.ofMagnitude true 0)).definition.render)) := by
  have hs := finiteLimits_limited (.ofMagnitude false 0) (by decide)
  have ht := finiteLimits_limited (.ofMagnitude true 0) (by decide)
  have hunlike : ¬Alike (limited (.ofMagnitude false 0)) (limited (.ofMagnitude true 0)) :=
    fun halike => absurd halike.resources (by decide)
  rcases fingerprint_eq_iff hs ht with ⟨hbytes, hdigests, _⟩
  refine ⟨hs, ht, mt hbytes.mp hunlike, hdigests.trans ?_⟩
  exact ⟨fun h => h.resolve_left hunlike, Or.inr⟩

end Service

end Fleet
