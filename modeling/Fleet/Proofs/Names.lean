import Fleet.Numbering
import Fleet.Store

/-!
# Names and numbers

Names of a service's containers are told apart by their numbers. A name ends in
an underscore and the digits of the number, and digits hold no underscore, so
the number can be read off the end whatever the project, the service and the id
in front are. Two names that end in different numbers are therefore different,
a parked one and a canonical one included; and with one number a parked name is
the longer of the two.

A number that is written on a label is read back from it, and no two ids that a
store gives out are the same.

## Theorems

* `parse?_toString`: A number is read back from its digits.
* `containerName_eq`: Canonical names tell services and numbers apart.
* `parkedName_number`: So do parked names.
* `parkedName_ne_containerName`: No parked name is canonical.
* `freshId_injective`: Ids that are numbered are distinct.
* `Labels.accepts_ofInstance_iff`, `Labels.find?_fingerprint_ofInstance`,
  `Labels.numberOf_ofInstance`: What the labels of a new container say.
-/

namespace Fleet

theorem toDigits_injective {m n : Nat} (h : Nat.toDigits 10 m = Nat.toDigits 10 n) : m = n := by
  have := congrArg (Nat.ofDigitChars 10 · 0) h
  simpa only [Nat.ofDigitChars_ten_toDigits] using this

/-- What stands after the last underscore of a text is determined by the text. -/
theorem append_underscore_inj {a b d e : List Char} (hd : '_' ∉ d) (he : '_' ∉ e)
    (h : a ++ '_' :: d = b ++ '_' :: e) : a = b ∧ d = e := by
  induction a generalizing b with
  | nil =>
      cases b with
      | nil => exact ⟨rfl, (List.cons.inj h).2⟩
      | cons c b =>
          have htail : d = b ++ '_' :: e := (List.cons.inj h).2
          rw [htail] at hd
          exact absurd (by simp) hd
  | cons c a ih =>
      cases b with
      | nil =>
          have htail : a ++ '_' :: d = e := (List.cons.inj h).2
          rw [← htail] at he
          exact absurd (by simp) he
      | cons c' b =>
          have hcons := List.cons.inj h
          rcases ih hcons.2 with ⟨hab, hde⟩
          exact ⟨by rw [hcons.1, hab], hde⟩

namespace Numbering

theorem ofDigits?_toDigits (n : Nat) : ofDigits? (Nat.toDigits 10 n) = some n := by
  have hne : (Nat.toDigits 10 n).isEmpty = false := by
    simp [Nat.toDigits_ne_nil]
  have hall : (Nat.toDigits 10 n).all Char.isDigit = true :=
    List.all_eq_true.mpr fun c hc => Nat.isDigit_of_mem_toDigits (by decide) (by decide) hc
  have hval : (Nat.toDigits 10 n).foldl (fun n c => n * 10 + (c.toNat - '0'.toNat)) 0 = n := by
    simp only [Nat.mul_comm _ 10]
    exact Nat.ofDigitChars_ten_toDigits
  simp only [ofDigits?, hne, hall, Bool.not_true, Bool.or_false, Bool.false_eq_true, if_false,
    hval]

/-- A number is read back from its digits. -/
theorem parse?_toString {n : Nat} (h : n < bound) : parse? (toString n) = some n := by
  have hdigits : (toString n).toList = Nat.toDigits 10 n := Nat.toList_repr
  have hplus : ∀ rest, Nat.toDigits 10 n ≠ '+' :: rest := by
    intro rest heq
    have hmem : '+' ∈ Nat.toDigits 10 n := by
      rw [heq]
      exact List.mem_cons_self
    exact absurd (Nat.isDigit_of_mem_toDigits (by decide) (by decide) hmem) (by decide)
  unfold parse?
  rw [hdigits]
  split
  next rest heq => exact absurd heq (hplus rest)
  next =>
    simp only []
    rw [ofDigits?_toDigits, Option.filter_some, if_pos (by simpa using h)]

end Numbering

theorem containerName_toList (project service : String) (n : Nat) :
    (containerName project service n).toList =
      (project ++ "_" ++ service).toList ++ '_' :: Nat.toDigits 10 n := by
  simp only [containerName, String.toList_append, Nat.toString_eq_repr, Nat.toList_repr,
    List.append_assoc]
  rfl

theorem parkedName_toList (id project service : String) (n : Nat) :
    (parkedName id (containerName project service n)).toList =
      ((shortIdOf id).toList ++ '_' :: (project ++ "_" ++ service).toList) ++
        '_' :: Nat.toDigits 10 n := by
  rw [parkedName, String.toList_append, String.toList_append, containerName_toList]
  simp only [List.append_assoc, List.cons_append]
  rfl

/-- Canonical names tell the services of a project apart, and their numbers. -/
theorem containerName_eq {project service other : String} {m n : Nat}
    (h : containerName project service m = containerName project other n) :
    service = other ∧ m = n := by
  have hl := congrArg String.toList h
  rw [containerName_toList, containerName_toList] at hl
  rcases append_underscore_inj Nat.underscore_not_in_toDigits Nat.underscore_not_in_toDigits hl with
    ⟨hfront, hdigits⟩
  exact ⟨(String.append_right_inj _).mp (String.toList_inj.mp hfront), toDigits_injective hdigits⟩

/-- Canonical names tell numbers apart. -/
theorem containerName_injective {project service : String} {m n : Nat}
    (h : containerName project service m = containerName project service n) : m = n :=
  (containerName_eq h).2

/-- Parked names tell numbers apart, whatever the ids. -/
theorem parkedName_number {i j project service : String} {m n : Nat}
    (h : parkedName i (containerName project service m) =
      parkedName j (containerName project service n)) : m = n := by
  have hl := congrArg String.toList h
  rw [parkedName_toList, parkedName_toList] at hl
  exact toDigits_injective (append_underscore_inj Nat.underscore_not_in_toDigits
    Nat.underscore_not_in_toDigits hl).2

/-- No parked name is canonical. -/
theorem parkedName_ne_containerName (id project service : String) (m n : Nat) :
    parkedName id (containerName project service m) ≠ containerName project service n := by
  intro h
  have hl := congrArg String.toList h
  rw [parkedName_toList, containerName_toList] at hl
  -- With the numbers cut off, the parked name still has the id in front.
  have hfront := (append_underscore_inj Nat.underscore_not_in_toDigits
    Nat.underscore_not_in_toDigits hl).1
  have hlen := congrArg List.length hfront
  simp only [List.length_append, List.length_cons] at hlen
  omega

theorem freshId_toList (n : Nat) : (Store.freshId n).toList =
    "new".toList ++ List.replicate (9 - (Nat.toDigits 10 n).length) '0' ++ Nat.toDigits 10 n ++
      List.replicate 52 '0' := String.toList_ofList

/-- Different numbers give different ids. -/
theorem freshId_injective : Function.Injective Store.freshId := fun m n h => by
  have hl := congrArg String.toList h
  simp only [freshId_toList, List.append_assoc] at hl
  rw [List.append_right_inj, ← List.append_assoc, ← List.append_assoc, List.append_left_inj] at hl
  -- The zeros in front do not change the number.
  have hval := congrArg (Nat.ofDigitChars 10 · 0) hl
  simpa only [Nat.ofDigitChars_append, Nat.ofDigitChars_replicate_zero, Nat.mul_zero,
    Nat.ofDigitChars_ten_toDigits] using hval

/-! ### Labels of new containers -/

namespace Labels

variable {project service fingerprint : String} {number : Nat}

theorem find?_ofInstance (key : String) :
    (ofInstance project service number fingerprint).find? key =
      if oneOffKey = key then some "False"
      else if fingerprintKey = key then some fingerprint
      else if numberKey = key then some (toString number)
      else if serviceKey = key then some service
      else if projectKey = key then some project
      else none := by
  simp only [ofInstance, Dict.ofList, List.foldl_cons, List.foldl_nil, Dict.find?_insert]
  rfl

/-- A new container is one of its own service's, and of no other. -/
theorem accepts_ofInstance_iff {project' service' : String} :
    (serviceFilter project' service').accepts (ofInstance project service number fingerprint) =
      true ↔ project' = project ∧ service' = service := by
  have hproject : (ofInstance project service number fingerprint).find? projectKey =
      some project := by
    rw [find?_ofInstance]
    rfl
  have hservice : (ofInstance project service number fingerprint).find? serviceKey =
      some service := by
    rw [find?_ofInstance]
    rfl
  simp only [LabelFilter.accepts, serviceFilter, List.all_cons, List.all_nil, hproject, hservice,
    Bool.and_true, Bool.and_eq_true, beq_iff_eq, Option.some.injEq, @eq_comm _ project,
    @eq_comm _ service]

/-- A new container is one of its service's. -/
theorem accepts_ofInstance :
    (serviceFilter project service).accepts (ofInstance project service number fingerprint) =
      true :=
  accepts_ofInstance_iff.mpr ⟨rfl, rfl⟩

/-- A new container has the fingerprint it was created from. -/
theorem find?_fingerprint_ofInstance :
    (ofInstance project service number fingerprint).find? fingerprintKey = some fingerprint := by
  rw [find?_ofInstance]
  rfl

/-- The number of a new container is read back. -/
theorem numberOf_ofInstance {summary : Summary} (hnumber : number < Numbering.bound)
    (h : summary.labels = ofInstance project service number fingerprint) :
    Numbering.numberOf summary = .ok number := by
  have hlabel : Numbering.labelOf summary = toString number := by
    rw [Numbering.labelOf, h, find?_ofInstance]
    rfl
  rw [Numbering.numberOf, hlabel, Numbering.parse?_toString hnumber]

end Labels

end Fleet
