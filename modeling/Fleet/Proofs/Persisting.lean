import Fleet.Proofs.Around
import Fleet.Proofs.Rank
import Fleet.Proofs.Reachable

/-!
# Clashes persist

A replacement that fails because another container is in its way leaves the clash as it
was, or puts a new one in its place. The old container stays where it stands, with its
number and its labels, so it is kept again and is to be replaced again. A new container
that has come up beside it has the same number, and the name that is needed.

If two containers with one number are both to be replaced, one of the replacements may
succeed. Then its new container is in the way of the other one, which is still kept,
since no more containers come before it than did.

## Main definitions

* `Pass.Due`: A container that is to be replaced.
* `Pass.Obstructed`: One that another container is in the way of.
* `Pass.Rivals`: Two with one number.

## Theorems

* `Pass.obstructed_or_rivals`: A clash is one or the other.
* `Pass.clash_of_obstructed`: An obstructed replacement fails and leaves a clash.
* `Pass.clash_or_obstructed_of_rivals`: A replacement that has a rival leaves a clash, or
  obstructs its rival.
-/

namespace Fleet

namespace Pass

/-- A container that is kept and to be replaced. -/
def Due (pass : Pass) (cs : List Container) (c : Container) : Prop :=
  c ∈ pass.kept cs ∧ pass.replaces c = true

/-- A container is to be replaced, and another one holds a name that is needed for it. -/
def Obstructed (pass : Pass) (cs : List Container) (c : Container) : Prop :=
  pass.Due cs c ∧ ∃ d ∈ pass.listed cs, d ≠ c ∧ d.number = c.number ∧
    (d.name = containerName pass.project.name pass.service.name c.number ∨
      d.name = parkedName c.id (containerName pass.project.name pass.service.name c.number))

/-- Two containers with one number are both to be replaced. -/
def Rivals (pass : Pass) (cs : List Container) (c d : Container) : Prop :=
  pass.Due cs c ∧ pass.Due cs d ∧ d ≠ c ∧ d.number = c.number

variable {pass : Pass} {cs : List Container} {c d : Container}

/-- In a clash a replacement is obstructed or has a rival. -/
theorem obstructed_or_rivals (h : pass.Clash cs) :
    ∃ c, pass.Obstructed cs c ∨ ∃ d, pass.Rivals cs c d := by
  rcases h with ⟨c, hc, hreplaces, d, hd, hne, hnumber, hdue | hname⟩
  · exact ⟨c, Or.inr ⟨d, ⟨hc, hreplaces⟩, hdue, hne, hnumber⟩⟩
  · exact ⟨c, Or.inl ⟨⟨hc, hreplaces⟩, d, hd, hne, hnumber, hname⟩⟩

theorem Obstructed.clash (h : pass.Obstructed cs c) : pass.Clash cs := by
  rcases h with ⟨⟨hc, hreplaces⟩, d, hd, hne, hnumber, hname⟩
  exact ⟨c, hc, hreplaces, d, hd, hne, hnumber, Or.inr hname⟩

theorem Rivals.clash (h : pass.Rivals cs c d) : pass.Clash cs := by
  rcases h with ⟨⟨hc, hreplaces⟩, hd, hne, hnumber⟩
  exact ⟨c, hc, hreplaces, d, mem_listed_of_kept hd.1, hne, hnumber, Or.inl hd⟩

/-- In a homely store a container is to be replaced if few enough come before it. -/
theorem due_iff {s : Store} (h : Homely pass.project.name pass.service.name s)
    (hc : c ∈ s.containers) : pass.Due s.containers c ↔
      Plan.rank s.containers c < pass.service.desiredScale ∧ pass.replaces c = true := by
  rw [Due, kept, h.listed_eq, Plan.mem_keptOf_iff hc]

theorem mem_of_due (h : pass.Due cs c) : c ∈ cs := (mem_listed.mp (mem_listed_of_kept h.1)).1

theorem mem_duties_of_due (missing : List Nat) (h : pass.Due cs c) :
    .recreate c ∈ pass.duties missing cs := by
  refine List.mem_append_right _ (List.mem_filterMap.mpr ⟨c, h.1, ?_⟩)
  rw [upkeepDuty, if_pos h.2]

theorem replaces_congr (h : d.labels = c.labels) : pass.replaces d = pass.replaces c := by
  simp only [replaces, Plan.isDrifted, Container.summary, h]

/-! ### What a replacement does to others of its number -/

section Aftermath

variable {s t t' : Store} {front back old new : List Container} {result : Except Error Unit}
  (ht : Homely pass.project.name pass.service.name t) (hplace : t.containers = front ++ c :: back)
  (ht' : Homely pass.project.name pass.service.name t')
  (hplace' : t'.containers = front ++ old ++ back ++ new)
  (hafter : Aftermath (pass.brief s) front back c result old new)

include ht hplace

theorem numbered_of_place : Numbering.numberOf c.summary = .ok c.number := by
  refine (ht.native c ?_).numbered
  rw [hplace]
  exact List.mem_append_right _ List.mem_cons_self

theorem id_ne_of_place : ∀ e ∈ front ++ back, e.id ≠ c.id := by
  have hids := ht.tidy.nodup
  rw [hplace, List.append_cons, ← List.append_nil (front ++ [c] ++ back)] at hids
  exact fun e he => ne_of_place hids e he c (List.mem_singleton_self c)

omit ht in
theorem mem_around_of_ne (hd : d ∈ t.containers) (hne : d ≠ c) : d ∈ front ++ back := by
  rw [hplace] at hd
  rcases List.mem_append.mp hd with hd | hd
  · exact List.mem_append_left _ hd
  · rcases List.mem_cons.mp hd with heq | hd
    · exact absurd heq hne
    · exact List.mem_append_right _ hd

include hafter

/-- All that a replacement leaves has the number of the old container. -/
theorem number_of_aftermath :
    (∀ e ∈ old, e.number = c.number) ∧ ∀ e ∈ new, e.number = c.number := by
  have hnumbered := numbered_of_place ht hplace
  have hsame : ∀ d : Container, d.labels = c.labels → ∀ e ∈ [d], e.number = c.number := by
    intro d hlabels e he
    rw [List.mem_singleton.mp he]
    exact Container.number_of_ok (numberOf_congr hlabels hnumbered)
  have hmade : ∀ d : Container, d.labels = Labels.ofInstance pass.project.name pass.service.name
      c.number pass.service.fingerprint → ∀ e ∈ [d], e.number = c.number := by
    intro d hlabels e he
    rw [List.mem_singleton.mp he]
    exact Container.number_of_ok (Labels.numberOf_ofInstance (numberOf_lt_bound hnumbered) hlabels)
  cases hafter with
  | waiting _ d _ hlabels => exact ⟨hsame d hlabels, fun e he => absurd he List.not_mem_nil⟩
  | beside _ d new _ hlabels hnew => exact ⟨hsame d hlabels, hmade new hnew⟩
  | gone new hnew => exact ⟨fun e he => absurd he List.not_mem_nil, hmade new hnew⟩

include ht' hplace'

/-- The old container is to be replaced again, as long as it is there. -/
theorem due_in_place (hold : old = [d]) (hid : d.id = c.id) (hlabels : d.labels = c.labels)
    (h : pass.Due t.containers c) : pass.Due t'.containers d := by
  subst hold
  have hnumbers := number_of_aftermath ht hplace hafter
  have hfront : ∀ e ∈ front, e.id ≠ c.id :=
    fun e he => id_ne_of_place ht hplace e (List.mem_append_left _ he)
  have hmem : d ∈ t'.containers := by
    rw [hplace']
    exact List.mem_append_left _ (List.mem_append_left _ (List.mem_append_right _
      (List.mem_singleton_self d)))
  have hbefore := (due_iff ht (mem_of_due h)).mp h
  refine (due_iff ht' hmem).mpr ⟨?_, (replaces_congr hlabels).trans hbefore.2⟩
  rw [hplace', Plan.rank_in_place (hnumbers.1 d (List.mem_singleton_self d)) hnumbers.2
    (fun hc => hfront c hc rfl) (fun hd => hfront d hd hid), ← hplace]
  exact hbefore.1

/-- Another container of the number is to be replaced again. -/
theorem due_around (hne : d ≠ c) (hnumber : d.number = c.number)
    (h : pass.Due t.containers d) : pass.Due t'.containers d := by
  have hnumbers := number_of_aftermath ht hplace hafter
  have haround := mem_around_of_ne hplace (mem_of_due h) hne
  have hold : old.length ≤ 1 ∧ d ∉ old := by
    have hother : ∀ e : Container, e.id = c.id → d ∉ [e] := by
      intro e hid hd
      refine id_ne_of_place ht hplace d haround ?_
      rw [List.mem_singleton.mp hd, hid]
    cases hafter with
    | waiting _ e hid => exact ⟨Nat.le_refl _, hother e hid⟩
    | beside _ e _ hid => exact ⟨Nat.le_refl _, hother e hid⟩
    | gone => exact ⟨Nat.zero_le _, List.not_mem_nil⟩
  have hmem : d ∈ t'.containers := by
    rw [hplace']
    rcases List.mem_append.mp haround with hd | hd
    · exact List.mem_append_left _ (List.mem_append_left _ (List.mem_append_left _ hd))
    · exact List.mem_append_left _ (List.mem_append_right _ hd)
  have hbefore := (due_iff ht (mem_of_due h)).mp h
  refine (due_iff ht' hmem).mpr ⟨?_, hbefore.2⟩
  have hle := Plan.rank_around_le haround hnumber hnumbers.1 hnumbers.2 hold.1 hold.2 hne
  rw [← hplace, ← hplace'] at hle
  omega

/-- A new container beside the old one, under the name that is needed, is in the way. -/
theorem clash_of_beside {new' : Container} (hold : old = [d]) (hnew : new = [new'])
    (hid : d.id = c.id) (hlabels : d.labels = c.labels) (hknown : c.id ∈ ids s.containers)
    (hname : new'.name = containerName pass.project.name pass.service.name c.number)
    (hunknown : new'.id ∉ ids s.containers) (h : pass.Due t.containers c) :
    pass.Clash t'.containers := by
  have hnumbers := number_of_aftermath ht hplace hafter
  have hnumber := hnumbers.1 d (hold ▸ List.mem_singleton_self d)
  have hmem : new' ∈ t'.containers := by
    rw [hplace', hnew]
    exact List.mem_append_right _ (List.mem_singleton_self _)
  refine Obstructed.clash ⟨due_in_place ht hplace ht' hplace' hafter hold hid hlabels h, new',
    ?_, ?_, ?_, ?_⟩
  · rw [ht'.listed_eq]
    exact hmem
  · rintro rfl
    rw [hid] at hunknown
    exact hunknown hknown
  · rw [hnumber]
    exact hnumbers.2 new' (hnew ▸ List.mem_singleton_self _)
  · rw [hnumber]
    exact Or.inl hname

/-- An obstructed replacement fails, and leaves a clash. -/
theorem clash_of_obstructed (hknown : c.id ∈ ids s.containers)
    (h : pass.Obstructed t.containers c) :
    (∃ error, result = .error error) ∧ pass.Clash t'.containers := by
  have hnumbers := number_of_aftermath ht hplace hafter
  rcases h with ⟨hdue, e, he, hne, hnumber, hname⟩
  rw [ht.listed_eq] at he
  have haround := mem_around_of_ne hplace he hne
  have hnames := ht'.tidy.names
  rw [hplace'] at hnames
  have hagain : ∀ d, old = [d] → d.id = c.id → d.labels = c.labels → pass.Due t'.containers d :=
    fun d hold hid hlabels => due_in_place ht hplace ht' hplace' hafter hold hid hlabels hdue
  cases hafter with
  | waiting error d hid hlabels =>
      refine ⟨⟨error, rfl⟩, Obstructed.clash ⟨hagain d rfl hid hlabels, e, ?_, ?_, ?_, ?_⟩⟩
      · rw [ht'.listed_eq, hplace', List.append_nil]
        rcases List.mem_append.mp haround with he | he
        · exact List.mem_append_left _ (List.mem_append_left _ he)
        · exact List.mem_append_right _ he
      · rintro rfl
        exact id_ne_of_place ht hplace e haround hid
      · rw [hnumber, hnumbers.1 d (List.mem_singleton_self d)]
      · rw [hnumbers.1 d (List.mem_singleton_self d), hid]
        exact hname
  | beside error d new hid hlabels hmade hnew hunknown =>
      exact ⟨⟨error, rfl⟩, clash_of_beside ht hplace ht' hplace'
        (.beside error d new hid hlabels hmade hnew hunknown) rfl rfl hid hlabels hknown hnew
        hunknown hdue⟩
  | gone new _ hnew _ hfree =>
      -- It has got to its end, so what is in its way cannot have been there.
      rcases hname with hname | hname
      · exact absurd (hname.trans hnew.symm) (ne_of_place hnames e haround new
          (List.mem_append_right _ (List.mem_singleton_self new)))
      · exact absurd hname (hfree e haround)

/-- A replacement that has a rival fails and leaves a clash, or succeeds and obstructs its rival. -/
theorem clash_or_obstructed_of_rivals (hknown : c.id ∈ ids s.containers)
    (h : pass.Rivals t.containers c d) :
    ((∃ error, result = .error error) ∧ pass.Clash t'.containers) ∨
      (result = .ok () ∧ pass.Obstructed t'.containers d) := by
  have hnumbers := number_of_aftermath ht hplace hafter
  rcases h with ⟨hdue, hdue', hne, hnumber⟩
  have haround := mem_around_of_ne hplace (mem_of_due hdue') hne
  have hkept := due_around ht hplace ht' hplace' hafter hne hnumber hdue'
  have hids := ht'.tidy.nodup
  rw [hplace'] at hids
  have hagain : ∀ d, old = [d] → d.id = c.id → d.labels = c.labels → pass.Due t'.containers d :=
    fun d hold hid hlabels => due_in_place ht hplace ht' hplace' hafter hold hid hlabels hdue
  cases hafter with
  | waiting error e hid hlabels =>
      refine Or.inl ⟨⟨error, rfl⟩, Rivals.clash ⟨hagain e rfl hid hlabels, hkept, ?_, ?_⟩⟩
      · rintro rfl
        exact id_ne_of_place ht hplace d haround hid
      · rw [hnumber, hnumbers.1 e (List.mem_singleton_self e)]
  | beside error e new hid hlabels hmade hnew hunknown =>
      exact Or.inl ⟨⟨error, rfl⟩, clash_of_beside ht hplace ht' hplace'
        (.beside error e new hid hlabels hmade hnew hunknown) rfl rfl hid hlabels hknown hnew
        hunknown hdue⟩
  | gone new _ hnew _ hfree =>
      -- The new container has the name of the number, and the rival has the number still.
      refine Or.inr ⟨rfl, hkept, new, ?_, ?_, ?_, ?_⟩
      · rw [ht'.listed_eq, hplace']
        exact List.mem_append_right _ (List.mem_singleton_self new)
      · rintro rfl
        exact ne_of_place hids new haround new
          (List.mem_append_right _ (List.mem_singleton_self new)) rfl
      · rw [hnumber, hnumbers.2 new (List.mem_singleton_self new)]
      · rw [hnumber]
        exact Or.inl hnew

end Aftermath

end Pass

end Fleet
