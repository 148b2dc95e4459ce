import Fleet.Proofs.Assignment
import Fleet.Proofs.Native

/-!
# Clashes of names

Whether the operations of a pass can get in each other's way is settled by the store on
which the pass begins. Every name that an operation takes or holds belongs to the number
of its container, and names tell numbers apart, so operations on different numbers never
meet. New numbers are above all others. What remains are containers that share a number:
a container that is to be replaced clashes with another one of its number if that one is
to be replaced too, or holds a name that the replacement needs.

A service never has two containers with one number while all goes well, but a
replacement that was broken off leaves two.

## Main definitions

* `Duty.number`, `Duty.taken`: The number a duty is about, and the one it uses up.
* `Pass.Clash`: A container is in the way of a replacement.

## Theorems

* `belongs_of_mem_names`: The names of an operation belong to its number.
* `planFor_complete`: When there is a plan.
* `fit_of_not_clash`: Without a clash no operation is in the way of another.
-/

namespace Fleet

namespace Duty

/-- The number that a duty is about. -/
def number : Duty → Nat
  | create number => number
  | remove c | restart c | recreate c => c.number

/-- The number that a duty uses up, if any. -/
def taken : Duty → List Nat
  | create number => [number]
  | _ => []

variable {b : Brief} {duty : Duty} {name : String}

theorem mem_wanted_recreate {c : Container}
    (hnumber : Numbering.numberOf c.summary = .ok c.number) :
    name ∈ (recreate c).wanted b ↔
      name = parkedName c.id (containerName b.project b.service.name c.number) ∨
        name = containerName b.project b.service.name c.number := by
  simp only [wanted, hnumber, List.mem_cons, List.not_mem_nil, or_false]

/-- The names of an operation belong to its number. -/
theorem belongs_of_mem_names
    (hfound : ∀ c ∈ duty.found, c.Regular b.project b.service.name) (h : name ∈ duty.names b) :
    Belongs b.project b.service.name duty.number name := by
  rcases List.mem_append.mp h with h | h
  · cases duty with
    | create number => exact Or.inl (List.mem_singleton.mp h)
    | recreate c =>
        rw [mem_wanted_recreate (hfound c (List.mem_singleton_self c)).numbered] at h
        rcases h with h | h
        · exact Or.inr ⟨c.id, h⟩
        · exact Or.inl h
    | _ => exact absurd h List.not_mem_nil
  · rcases List.mem_map.mp h with ⟨c, hc, rfl⟩
    have hregular := hfound c hc
    cases duty with
    | create => exact absurd hc List.not_mem_nil
    | _ =>
        rw [List.mem_singleton.mp hc] at hregular ⊢
        exact hregular.belongs

end Duty

/-- What is distinct in duties altogether is in no two of them. -/
theorem not_mem_of_bind_nodup {α : Type} {f : Duty → Multiset α} {duties rest : Multiset Duty}
    {duty other : Duty} (h : duties = duty ::ₘ rest) (hnodup : (duties.bind f).Nodup)
    (hother : other ∈ rest) {a : α} (ha : a ∈ f duty) : a ∉ f other := by
  rw [h, Multiset.cons_bind] at hnodup
  intro ha'
  exact Multiset.disjoint_left.mp (Multiset.nodup_add.mp hnodup).2.2 ha
    (Multiset.mem_bind.mpr ⟨other, hother, ha'⟩)

namespace Pass

/-- A container is in the way of a replacement: it shares its number, and is to be replaced too or
    holds a name that the replacement needs. -/
def Clash (pass : Pass) (cs : List Container) : Prop :=
  ∃ c ∈ pass.kept cs, pass.replaces c = true ∧
    ∃ d ∈ pass.listed cs, d ≠ c ∧ d.number = c.number ∧
      (d ∈ pass.kept cs ∧ pass.replaces d = true ∨
        d.name = containerName pass.project.name pass.service.name c.number ∨
        d.name = parkedName c.id (containerName pass.project.name pass.service.name c.number))

variable {pass : Pass} {cs : List Container} {plan : Plan} {missing : List Nat}

theorem bind_taken (pass : Pass) (missing : List Nat) (cs : List Container) :
    (pass.duties missing cs : Multiset Duty).bind (fun duty => (duty.taken : Multiset Nat)) =
      ↑missing := by
  have hnone : ∀ duties : List Duty, (∀ duty ∈ duties, duty.taken = []) →
      (duties : Multiset Duty).bind (fun duty => (duty.taken : Multiset Nat)) = 0 := by
    intro duties h
    rw [Multiset.bind_congr fun duty hduty => congrArg Multiset.ofList (h duty hduty)]
    exact Multiset.bind_zero _
  have hremove := hnone ((pass.excess cs).map .remove) fun duty hduty => by
    rcases List.mem_map.mp hduty with ⟨c, _, rfl⟩
    rfl
  have hupkeep := hnone ((pass.kept cs).filterMap pass.upkeepDuty) fun duty hduty => by
    rcases List.mem_filterMap.mp hduty with ⟨c, _, hduty⟩
    rcases upkeepDuty_cases hduty with ⟨_, rfl⟩ | ⟨_, _, rfl⟩
    · rfl
    · rfl
  rw [duties, ← Multiset.coe_add, ← Multiset.coe_add, Multiset.add_bind, Multiset.add_bind,
    hremove, hupkeep, add_zero, add_zero, ← Multiset.map_coe, Multiset.bind_map]
  exact (Multiset.bind_singleton _ id).trans (Multiset.map_id _)

theorem not_mem_found_of_other {duty other : Duty} {rest : Multiset Duty} {c : Container}
    (hids : (ids cs).Nodup) (hduties : (pass.duties missing cs : Multiset Duty) = duty ::ₘ rest)
    (hother : other ∈ rest) (hc : c ∈ duty.found) : c ∉ other.found := by
  have hcontainers := Multiset.Nodup.of_map _ hids
  rw [stock_eq pass missing cs] at hcontainers
  exact not_mem_of_bind_nodup (f := fun duty => (duty.found : Multiset Container)) hduties
    (Multiset.nodup_add.mp hcontainers).2.1 hother hc

/-- The container of a duty is one that the pass lists, and a new number is above those of all. -/
theorem duty_cases (hplan : pass.planFor cs = .ok plan) {duty : Duty}
    (h : duty ∈ pass.duties plan.missing cs) :
    (∃ number, duty = .create number ∧ ∀ c ∈ pass.listed cs, c.number < number) ∨
    ∃ c ∈ pass.listed cs, duty.found = [c] ∧ duty.number = c.number := by
  rcases mem_duties h with ⟨number, hnumber, rfl⟩ | ⟨c, hc, rfl⟩ | ⟨c, hc, _, _, rfl⟩ |
    ⟨c, hc, _, rfl⟩
  · exact Or.inl ⟨number, rfl, ((about_of_planFor hplan).above number hnumber).2⟩
  · exact Or.inr ⟨c, mem_listed_of_excess hc, rfl, rfl⟩
  · exact Or.inr ⟨c, mem_listed_of_kept hc, rfl, rfl⟩
  · exact Or.inr ⟨c, mem_listed_of_kept hc, rfl, rfl⟩

theorem clash_of_wanted {s : Store} {c d : Container} (hc : c ∈ pass.kept cs)
    (hreplaces : pass.replaces c = true)
    (hregular : ∀ c ∈ pass.listed cs, c.Regular pass.project.name pass.service.name)
    (hd : d ∈ pass.listed cs) (hne : d ≠ c)
    (hwanted : d.name ∈ (Duty.recreate c).wanted (pass.brief s)) : pass.Clash cs := by
  have hcreg := hregular c (mem_listed_of_kept hc)
  rw [Duty.mem_wanted_recreate hcreg.numbered] at hwanted
  have hbelongs : Belongs pass.project.name pass.service.name c.number d.name := by
    rcases hwanted with hname | hname
    · exact Or.inr ⟨c.id, hname⟩
    · exact Or.inl hname
  exact ⟨c, hc, hreplaces, d, hd, hne, (hregular d hd).belongs.unique hbelongs,
    Or.inr hwanted.symm⟩

theorem wanted_cases {s : Store} (hplan : pass.planFor cs = .ok plan) {duty : Duty}
    (h : duty ∈ pass.duties plan.missing cs) {name : String}
    (hwanted : name ∈ duty.wanted (pass.brief s)) :
    (∃ number, duty = .create number ∧ ∀ c ∈ pass.listed cs, c.number < number) ∨
    ∃ c ∈ pass.kept cs, pass.replaces c = true ∧ duty = .recreate c := by
  rcases mem_duties h with ⟨number, hnumber, rfl⟩ | ⟨c, _, rfl⟩ | ⟨c, _, _, _, rfl⟩ |
    ⟨c, hc, hreplaces, rfl⟩
  · exact Or.inl ⟨number, rfl, ((about_of_planFor hplan).above number hnumber).2⟩
  · exact absurd hwanted List.not_mem_nil
  · exact absurd hwanted List.not_mem_nil
  · exact Or.inr ⟨c, hc, hreplaces, rfl⟩

theorem desiredScale_lt_bound (service : Service) : service.desiredScale < Numbering.bound := by
  have hsmall : ∀ n : UInt32, n.toNat < Numbering.bound := fun n => n.toNat_lt
  unfold Service.desiredScale
  split
  · exact hsmall _
  · split
    · decide
    · exact hsmall _

/-- There is a plan if all containers of the service have numbers and there are numbers left. -/
theorem planFor_complete {cs : List Container}
    (hregular : ∀ c ∈ pass.listed cs, c.Regular pass.project.name pass.service.name)
    (hroom : Numbering.Room (pass.listed cs) pass.service.desiredScale) :
    ∃ plan, pass.planFor cs = .ok plan :=
  Plan.ofListing_complete (fun c hc => (hregular c hc).numbered) hroom
    (desiredScale_lt_bound pass.service)

section Names

variable {s : Store} {duty : Duty} {name : String}
  (hplan : pass.planFor s.containers = .ok plan) (hids : (ids s.containers).Nodup)
  (hregular : ∀ c ∈ pass.listed s.containers, c.Regular pass.project.name pass.service.name)
  (hfree : ¬pass.Clash s.containers)

include hplan hregular in
theorem duty_belongs (hduty : duty ∈ pass.duties plan.missing s.containers)
    (hname : name ∈ duty.names (pass.brief s)) :
    Belongs pass.project.name pass.service.name duty.number name := by
  refine Duty.belongs_of_mem_names (b := pass.brief s) (fun c hc => ?_) hname
  rcases duty_cases hplan hduty with ⟨number, rfl, _⟩ | ⟨d, hd, hfound, _⟩
  · exact absurd hc List.not_mem_nil
  · rw [hfound, List.mem_singleton] at hc
    rw [hc]
    exact hregular d hd

include hplan hregular hfree

/-- Without a clash no container that is kept as it is has a name that is wanted. -/
theorem not_wanted_of_idle (hduty : duty ∈ pass.duties plan.missing s.containers) {c : Container}
    (hc : c ∈ pass.kept s.containers) (hidle : pass.upkeepDuty c = none) :
    c.name ∉ duty.wanted (pass.brief s) := by
  intro hwanted
  have hlisted := mem_listed_of_kept hc
  have hnumber := (hregular c hlisted).belongs.unique
    (duty_belongs hplan hregular hduty (List.mem_append_left _ hwanted))
  rcases wanted_cases hplan hduty hwanted with ⟨number, rfl, habove⟩ | ⟨d, hd, hreplaces, rfl⟩
  · have := habove c hlisted
    rw [Duty.number] at hnumber
    omega
  · refine hfree (clash_of_wanted hd hreplaces hregular hlisted ?_ hwanted)
    rintro rfl
    rw [(upkeepDuty_eq_none hidle).1] at hreplaces
    cases hreplaces

include hids

/-- Without a clash no operation lays claim to a name that another one wants. -/
theorem not_wanted_of_other {rest : Multiset Duty}
    (hduties : (pass.duties plan.missing s.containers : Multiset Duty) = duty ::ₘ rest)
    (hwanted : name ∈ duty.wanted (pass.brief s)) {other : Duty} (hother : other ∈ rest) :
    name ∉ other.names (pass.brief s) := by
  intro hname
  have hmem : duty ∈ pass.duties plan.missing s.containers := by
    rw [← Multiset.mem_coe, hduties]
    exact Multiset.mem_cons_self _ _
  have hmem' : other ∈ pass.duties plan.missing s.containers := by
    rw [← Multiset.mem_coe, hduties]
    exact Multiset.mem_cons_of_mem hother
  have hnumber : other.number = duty.number :=
    (duty_belongs hplan hregular hmem' hname).unique
      (duty_belongs hplan hregular hmem (List.mem_append_left _ hwanted))
  -- A name belongs to one number, so it is operations with one number that could meet. A new number
  -- is that of one operation only.
  rcases wanted_cases hplan hmem hwanted with ⟨number, rfl, habove⟩ | ⟨c, hc, hreplaces, rfl⟩
  · rcases duty_cases hplan hmem' with ⟨number', rfl, _⟩ | ⟨d, hd, _, hnumber'⟩
    · have htaken : ((pass.duties plan.missing s.containers : Multiset Duty).bind fun duty =>
          (duty.taken : Multiset Nat)).Nodup := by
        rw [bind_taken]
        exact Multiset.coe_nodup.mpr (about_of_planFor hplan).nodup
      exact not_mem_of_bind_nodup hduties htaken hother (List.mem_singleton_self number)
        (List.mem_singleton.mpr hnumber.symm)
    · have := habove d hd
      rw [hnumber', Duty.number] at hnumber
      omega
  · rcases duty_cases hplan hmem' with ⟨number', rfl, habove⟩ | ⟨d, hd, hfound, hnumber'⟩
    · have := habove c (mem_listed_of_kept hc)
      simp only [Duty.number] at hnumber
      omega
    have hne : d ≠ c := by
      rintro rfl
      refine not_mem_found_of_other hids hduties hother (List.mem_singleton_self d) ?_
      rw [hfound]
      exact List.mem_singleton_self d
    -- Two containers with one number: the other operation wants the name, or its container has it.
    rcases List.mem_append.mp hname with hname | hname
    · rcases wanted_cases hplan hmem' hname with ⟨_, rfl, _⟩ | ⟨d', hd', hreplaces', rfl⟩
      · cases hfound
      · cases hfound
        exact hfree ⟨c, hc, hreplaces, d, hd, hne, hnumber, Or.inl ⟨hd', hreplaces'⟩⟩
    · rw [hfound, List.map_singleton, List.mem_singleton] at hname
      rw [hname] at hwanted
      exact hfree (clash_of_wanted hc hreplaces hregular hd hne hwanted)

/-- Without a clash no operation is in the way of another, as long as no other container is. -/
theorem fit_of_not_clash
    (houtside : ∀ c ∈ pass.outside s.containers, ∀ duty ∈ pass.duties plan.missing s.containers,
      c.name ∉ duty.wanted (pass.brief s)) :
    Fit (pass.brief s) True (pass.untouched s.containers)
      (pass.duties plan.missing s.containers) := by
  refine ⟨fun _ hduty => found_le pass plan.missing s.containers hduty, ?_, ?_⟩
  · intro _ duty hduty
    rcases mem_duties hduty with ⟨number, _, rfl⟩ | ⟨c, _, rfl⟩ | ⟨c, _, _, _, rfl⟩ |
      ⟨c, hc, _, rfl⟩
    · exact ⟨_, rfl⟩
    · exact ⟨_, rfl⟩
    · exact ⟨_, rfl⟩
    · simp only [Duty.operation, Operation.recreate,
        (hregular c (mem_listed_of_kept hc)).numbered]
      exact ⟨_, rfl⟩
  intro _ duty rest hduties name hwanted
  refine ⟨?_, fun other hother =>
    not_wanted_of_other hplan hids hregular hfree hduties hwanted hother⟩
  rintro c hc rfl
  have hduty : duty ∈ pass.duties plan.missing s.containers := by
    rw [← Multiset.mem_coe, hduties]
    exact Multiset.mem_cons_self _ _
  rcases List.mem_append.mp hc with hout | hidle
  · exact houtside c hout duty hduty hwanted
  · rcases List.mem_filter.mp hidle with ⟨hkept, hnone⟩
    exact not_wanted_of_idle hplan hregular hfree hduty hkept
      (Option.isNone_iff_eq_none.mp hnone) hwanted

end Names

end Pass

end Fleet
