import Fleet.Proofs.Clash
import Fleet.Proofs.Convergence
import Fleet.Proofs.OpenGates
import Fleet.Proofs.Retention
import Fleet.Proofs.Throughout

/-!
# One outcome under every order

On a well-formed store a pass is bound to succeed, whatever the order in which its tasks
make their requests, and it comes to the same store every time. Only two things are left
to the order: which of the new containers gets which new id, and where the containers
stand in the store.

The outcome can therefore be given before the pass has begun (`Pass.outcome`), with the
new ids left blank, and the store at the end is compared with it after its new ids have
been blanked as well and without regard to order.

A store is well formed for a pass and the names that the pass takes. What a pass leaves
behind is well formed for the same names; and unless containers are replaced whatever
their fingerprint, the same pass made once more would take no names at all.

## Main definitions

* `Container.veiled`: A container with its id blanked if it is new.
* `Pass.takes`: The names that a pass takes.
* `Pass.WellFormed`: A store that is well formed for a pass.
* `Pass.outcome`: What a pass comes to.
* `Pass.Settles`: A store is what a pass comes to on another one.

## Theorems

* `veiled_left`: What a duty leaves behind, with new ids blanked.
* `left_regular`: What a duty leaves behind is regular.
* `settles_of_succeeds`: What a pass that is bound to succeed comes to.
* `inevitably_settles`: On a well-formed store every order leads to the outcome.
-/

namespace Fleet

variable {ρ : Type}

/-- A container with its id blanked if it is not a known one. -/
def Container.veiled (known : List String) (c : Container) : Container :=
  if c.id ∈ known then c else { c with id := "" }

theorem Container.veiled_eq_self {known : List String} {c : Container}
    (h : c.id ∈ known ∨ c.id = "") : c.veiled known = c := by
  rw [veiled]
  split
  · rfl
  next hnot =>
    have hid : c.id = "" := h.resolve_left hnot
    rw [← hid]

/-- Known containers are not blanked. -/
theorem map_veiled_of_subset {cs l : List Container} (h : l ⊆ cs) :
    l.map (·.veiled (cs.map (·.id))) = l := by
  conv_rhs => rw [← List.map_id l]
  exact List.map_congr_left fun c hc =>
    Container.veiled_eq_self (Or.inl (List.mem_map_of_mem (h hc)))

namespace Pass

/-- The names that a pass takes on a store, none if it has no plan. -/
def takes (pass : Pass) (s : Store) : List String :=
  match pass.planFor s.containers with
  | .ok plan => (pass.duties plan.missing s.containers).flatMap (·.wanted (pass.brief s))
  | .error _ => []

/-- A store is well formed for a pass and the names it takes: ids, names and the numbers of the
    service are distinct, every container of the service has a name that goes with its number, and
    no other container holds a name that is taken. -/
structure WellFormed (pass : Pass) (taken : List String) (s : Store) : Prop where
  tidy : s.Tidy
  regular : ∀ c ∈ pass.listed s.containers, c.Regular pass.project.name pass.service.name
  numbers : ((pass.listed s.containers).map (·.number)).Nodup
  clear : ∀ c ∈ pass.outside s.containers, c.name ∉ taken

/-- What a pass comes to, the ids of new containers left blank. -/
def outcome (pass : Pass) (s : Store) : List Container :=
  match pass.planFor s.containers with
  | .ok plan =>
    pass.untouched s.containers ++
      (pass.duties plan.missing s.containers).flatMap (·.left (pass.brief s) "")
  | .error _ => s.containers

/-- A store is what a pass comes to on another one: it is well formed for the names that were
    taken, and for those that the pass would take once more unless containers are replaced in any
    case; and it is the outcome but for new ids and order. -/
structure Settles (pass : Pass) (s t : Store) : Prop where
  formed : pass.WellFormed (pass.takes s) t
  again : pass.marks.forces pass.service = false → pass.WellFormed (pass.takes t) t
  same : (t.containers.map (·.veiled (s.containers.map (·.id)))).Perm (pass.outcome s)

variable {pass : Pass} {s : Store} {plan : Plan}

/-! ### Beginnings -/

theorem not_clash_of_nodup {cs : List Container}
    (h : ((pass.listed cs).map (·.number)).Nodup) : ¬pass.Clash cs := by
  rintro ⟨c, hc, _, d, hd, hne, hnumber, _⟩
  exact hne (List.inj_on_of_nodup_map h hd (mem_listed_of_kept hc) hnumber)

theorem WellFormed.fit (h : pass.WellFormed (pass.takes s) s)
    (hplan : pass.planFor s.containers = .ok plan) :
    Fit (pass.brief s) True (pass.untouched s.containers)
      (pass.duties plan.missing s.containers) := by
  refine fit_of_not_clash hplan h.tidy.ids_nodup h.regular (not_clash_of_nodup h.numbers) ?_
  intro c hc duty hduty hwanted
  refine h.clear c hc ?_
  rw [takes, hplan]
  exact List.mem_flatMap.mpr ⟨duty, hduty, hwanted⟩

/-! ### Ends -/

/-- What a duty leaves behind, where all containers of the service have numbers: a new container
    with its number, its container started, or nothing. -/
theorem left_cases (hplan : pass.planFor s.containers = .ok plan)
    (hregular : ∀ c ∈ pass.listed s.containers, c.Regular pass.project.name pass.service.name)
    {duty : Duty} (h : duty ∈ pass.duties plan.missing s.containers) :
    (duty.number < Numbering.bound ∧ ∀ fresh, duty.left (pass.brief s) fresh =
      [.risen (pass.brief s) duty.number fresh]) ∨
    (∃ c ∈ pass.listed s.containers, duty.number = c.number ∧ ∀ fresh,
      duty.left (pass.brief s) fresh = [{ c with state := .running }]) ∨
    ∀ fresh, duty.left (pass.brief s) fresh = [] := by
  rcases mem_duties h with ⟨number, hnumber, rfl⟩ | ⟨c, hc, rfl⟩ | ⟨c, hc, _, _, rfl⟩ |
    ⟨c, hc, _, rfl⟩
  · exact Or.inl ⟨((about_of_planFor hplan).above number hnumber).1, fun _ => rfl⟩
  · exact Or.inr (Or.inr fun _ => rfl)
  · exact Or.inr (Or.inl ⟨c, mem_listed_of_kept hc, rfl, fun _ => rfl⟩)
  · have hnumber := (hregular c (mem_listed_of_kept hc)).numbered
    refine Or.inl ⟨numberOf_lt_bound hnumber, fun fresh => ?_⟩
    simp only [Duty.left, hnumber]
    rfl

/-- What a duty leaves behind, with new ids blanked, does not hang on these ids. -/
theorem veiled_left (hplan : pass.planFor s.containers = .ok plan)
    (hregular : ∀ c ∈ pass.listed s.containers, c.Regular pass.project.name pass.service.name)
    {duty : Duty} (h : duty ∈ pass.duties plan.missing s.containers) {fresh : String}
    (hnew : (pass.brief s).New fresh ∨
      ∀ id, duty.left (pass.brief s) id = duty.left (pass.brief s) fresh) :
    (duty.left (pass.brief s) fresh).map (·.veiled (s.containers.map (·.id))) =
      duty.left (pass.brief s) "" := by
  rcases left_cases hplan hregular h with ⟨_, hleft⟩ | ⟨c, hc, _, hleft⟩ | hleft
  · rcases hnew with hnew | hsame
    · have hunknown : fresh ∉ s.containers.map (·.id) := by
        have := hnew.1
        rw [brief, ids_coe] at this
        exact this
      have hveiled : (Container.risen (pass.brief s) duty.number fresh).veiled
          (s.containers.map (·.id)) = Container.risen (pass.brief s) duty.number "" :=
        if_neg hunknown
      rw [hleft, hleft, List.map_singleton, hveiled]
    · have hveiled : (Container.risen (pass.brief s) duty.number "").veiled
          (s.containers.map (·.id)) = Container.risen (pass.brief s) duty.number "" :=
        Container.veiled_eq_self (Or.inr rfl)
      rw [← hsame "", hleft, List.map_singleton, hveiled]
  · have hknown : c.id ∈ s.containers.map (·.id) := List.mem_map_of_mem (mem_listed.mp hc).1
    have hveiled : Container.veiled (s.containers.map (·.id)) { c with state := .running } =
        { c with state := .running } := Container.veiled_eq_self (Or.inl hknown)
    rw [hleft, hleft, List.map_singleton, hveiled]
  · rw [hleft, hleft, List.map_nil]

/-- What a duty leaves behind is regular, and has its number. -/
theorem left_regular (hplan : pass.planFor s.containers = .ok plan)
    (hregular : ∀ c ∈ pass.listed s.containers, c.Regular pass.project.name pass.service.name)
    {duty : Duty} (h : duty ∈ pass.duties plan.missing s.containers) (fresh : String) :
    (∀ c ∈ duty.left (pass.brief s) fresh, c.Regular pass.project.name pass.service.name) ∧
      ((duty.left (pass.brief s) fresh).map (·.number) : Multiset Nat) ≤ {duty.number} := by
  rcases left_cases hplan hregular h with ⟨hbound, hleft⟩ | ⟨c, hc, hnumber, hleft⟩ | hleft
  · have hrisen := native_of_new (pass.brief s) hbound
      (c := .risen (pass.brief s) duty.number fresh) rfl rfl
    rw [hleft]
    refine ⟨?_, ?_⟩
    · intro d hd
      rw [List.mem_singleton.mp hd]
      exact hrisen.1.toRegular
    · rw [List.map_singleton, hrisen.2, Multiset.coe_singleton]
  · rw [hleft]
    refine ⟨?_, ?_⟩
    · intro d hd
      rw [List.mem_singleton.mp hd]
      exact ⟨(hregular c hc).numbered, (hregular c hc).named⟩
    · rw [List.map_singleton, Multiset.coe_singleton, hnumber]
      exact le_rfl
  · rw [hleft]
    exact ⟨fun d hd => absurd hd List.not_mem_nil, Multiset.zero_le _⟩

theorem bind_le_map {α β : Type} {m : Multiset α} {f : α → Multiset β} {g : α → β}
    (h : ∀ a ∈ m, f a ≤ {g a}) : m.bind f ≤ m.map g := by
  induction m using Multiset.induction_on with
  | empty => exact le_refl _
  | cons a m ih =>
      rw [Multiset.cons_bind, Multiset.map_cons, ← Multiset.singleton_add]
      exact add_le_add (h a (Multiset.mem_cons_self a m))
        (ih fun a' ha' => h a' (Multiset.mem_cons_of_mem ha'))

/-- The numbers of the containers that are kept as they are and of all duties are distinct. -/
theorem numbers_nodup (hplan : pass.planFor s.containers = .ok plan)
    (h : ((pass.listed s.containers).map (·.number)).Nodup) :
    ((pass.idle s.containers : Multiset Container).map (·.number) +
      (pass.duties plan.missing s.containers : Multiset Duty).map (·.number)).Nodup := by
  have habout := about_of_planFor hplan
  -- The number of a duty is one that it uses up or that of its container.
  have hnumber : ∀ duty : Duty, ({duty.number} : Multiset Nat) =
      ↑duty.taken + (duty.found : Multiset Container).map (·.number) := by
    intro duty
    cases duty <;> rfl
  have hduties : (pass.duties plan.missing s.containers : Multiset Duty).map (·.number) =
      ↑plan.missing + ((pass.duties plan.missing s.containers : Multiset Duty).bind fun duty =>
        (duty.found : Multiset Container)).map (·.number) := by
    rw [← Multiset.bind_singleton, Multiset.bind_congr fun duty _ => hnumber duty,
      Multiset.bind_add, bind_taken, Multiset.map_bind]
  rw [hduties, add_left_comm, ← Multiset.map_add, ← listed_eq, Multiset.map_coe,
    Multiset.nodup_add]
  refine ⟨Multiset.coe_nodup.mpr habout.nodup, Multiset.coe_nodup.mpr h, ?_⟩
  refine Multiset.disjoint_left.mpr ?_
  intro number hnew hold
  rcases List.mem_map.mp (Multiset.mem_coe.mp hold) with ⟨c, hc, rfl⟩
  exact Nat.lt_irrefl _ ((habout.above c.number hnew).2 c hc)

/-- A service that is in line has no use for names, unless its containers are replaced in any
    case. -/
theorem takes_of_converged {t : Store} (h : Converged pass.project pass.service t.containers)
    (hfree : pass.marks.forces pass.service = false) : pass.takes t = [] := by
  unfold takes
  cases hplan : pass.planFor t.containers with
  | error cause => rfl
  | ok plan =>
      have hlength : (pass.listed t.containers).length = pass.service.desiredScale := h.count
      have hmissing : plan.missing = [] := by
        refine List.eq_nil_of_length_eq_zero ?_
        rw [(about_of_planFor hplan).length, hlength]
        omega
      refine List.flatMap_eq_nil_iff.mpr fun duty hduty => ?_
      rcases mem_duties hduty with ⟨number, hnumber, _⟩ | ⟨c, _, rfl⟩ | ⟨c, _, _, _, rfl⟩ |
        ⟨c, hc, hreplaces, _⟩
      · rw [hmissing] at hnumber
        exact absurd hnumber List.not_mem_nil
      · rfl
      · rfl
      · have hcurrent := (h.each c (mem_listed_of_kept hc)).current
        rw [replaces, hfree, Bool.or_false, Plan.isDrifted, bne_iff_ne] at hreplaces
        exact absurd hcurrent hreplaces

section Left

variable {t : Store} {outcomes : Multiset (Duty × String)}
  (hplan : pass.planFor s.containers = .ok plan)
  (hduties : outcomes.map (·.1) = (pass.duties plan.missing s.containers : Multiset Duty))
  (houtcomes : ∀ o ∈ outcomes, (∃ steps, (o.1.operation (pass.brief s)).steps = .ok steps) ∧
    ((pass.brief s).New o.2 ∨
      ∀ id, o.1.left (pass.brief s) id = o.1.left (pass.brief s) o.2))
  (hstock : (t.containers : Multiset Container) = ↑(pass.untouched s.containers) +
    outcomes.bind fun o => (o.1.left (pass.brief s) o.2 : Multiset Container))
  (h : pass.WellFormed (pass.takes s) s)

include hduties in
theorem mem_duties_of_mem_outcomes {o : Duty × String} (ho : o ∈ outcomes) :
    o.1 ∈ pass.duties plan.missing s.containers := by
  rw [← Multiset.mem_coe, ← hduties]
  exact Multiset.mem_map_of_mem _ ho

include hplan hduties houtcomes in
/-- What is left behind by all duties, with new ids blanked. -/
theorem veiled_outcomes
    (hregular : ∀ c ∈ pass.listed s.containers, c.Regular pass.project.name pass.service.name) :
    (outcomes.bind fun o => (o.1.left (pass.brief s) o.2 : Multiset Container)).map
      (·.veiled (s.containers.map (·.id))) =
      ↑((pass.duties plan.missing s.containers).flatMap (·.left (pass.brief s) "")) := by
  have hleft : ∀ o ∈ outcomes, (o.1.left (pass.brief s) o.2 : Multiset Container).map
      (·.veiled (s.containers.map (·.id))) = ↑(o.1.left (pass.brief s) "") := by
    intro o ho
    rw [Multiset.map_coe, veiled_left hplan hregular (mem_duties_of_mem_outcomes hduties ho)
      (houtcomes o ho).2]
  rw [Multiset.map_bind, Multiset.bind_congr hleft, ← Multiset.coe_bind, ← hduties,
    Multiset.bind_map]

include hplan hduties houtcomes hstock h

/-- What is left behind by all duties is well formed for the names that were taken. -/
theorem wellFormed_left (htidy : t.Tidy) : pass.WellFormed (pass.takes s) t := by
  have hlisted : (pass.listed t.containers : Multiset Container) = ↑(pass.idle s.containers) +
      outcomes.bind fun o => (o.1.left (pass.brief s) o.2 : Multiset Container) :=
    ofService_left hduties (fun o ho => (houtcomes o ho).1) hstock
  refine ⟨htidy, ?_, ?_, ?_⟩
  · intro c hc
    rw [← Multiset.mem_coe, hlisted, Multiset.mem_add, Multiset.mem_bind] at hc
    rcases hc with hc | ⟨o, ho, hc⟩
    · exact h.regular c (mem_listed_of_kept (List.mem_filter.mp hc).1)
    · exact (left_regular hplan h.regular (mem_duties_of_mem_outcomes hduties ho) o.2).1 c hc
  · have hle : ((pass.listed t.containers).map (·.number) : Multiset Nat) ≤
        (pass.idle s.containers : Multiset Container).map (·.number) +
          (pass.duties plan.missing s.containers : Multiset Duty).map (·.number) := by
      rw [← Multiset.map_coe, hlisted, Multiset.map_add, Multiset.map_bind, ← hduties,
        Multiset.map_map]
      refine add_le_add (le_refl _) (bind_le_map fun o ho => ?_)
      exact (left_regular hplan h.regular (mem_duties_of_mem_outcomes hduties ho) o.2).2
    exact Multiset.coe_nodup.mp (Multiset.nodup_of_le hle (numbers_nodup hplan h.numbers))
  · intro c hc
    rcases List.mem_filter.mp hc with ⟨hmem, hout⟩
    rw [← Multiset.mem_coe, hstock, Multiset.mem_add, Multiset.mem_bind] at hmem
    rcases hmem with hmem | ⟨o, ho, hmem⟩
    · rcases List.mem_append.mp hmem with hmem | hmem
      · exact h.clear c hmem
      · rw [(mem_idle hmem).1] at hout
        cases hout
    · rcases (houtcomes o ho).1 with ⟨steps, hsteps⟩
      have hleft := left_upToDate (mem_duties_of_mem_outcomes hduties ho) hsteps o.2
      rw [(hleft.2 c hmem).1] at hout
      cases hout

/-- What is left behind by all duties is the outcome. -/
theorem veiled_eq_outcome :
    (t.containers.map (·.veiled (s.containers.map (·.id)))).Perm (pass.outcome s) := by
  have huntouched : (pass.untouched s.containers).map (·.veiled (s.containers.map (·.id))) =
      pass.untouched s.containers := map_veiled_of_subset fun c hc => by
    rw [← Multiset.mem_coe, stock_eq pass plan.missing s.containers]
    exact Multiset.mem_add.mpr (Or.inl hc)
  rw [← Multiset.coe_eq_coe, ← Multiset.map_coe, hstock, Multiset.map_add, Multiset.map_coe,
    huntouched, veiled_outcomes hplan hduties houtcomes h.regular, outcome, hplan,
    ← Multiset.coe_add]

end Left

variable {H : Host ρ}

/-- What a pass that is bound to succeed comes to on a well-formed store. -/
theorem settles_of_succeeds {site : Site ρ} {result : Except Error Unit}
    (hplan : pass.planFor s.containers = .ok plan) (h : pass.WellFormed (pass.takes s) s)
    (hsucceeds : Succeeds H s pass plan.missing result site) (htidy : (H.store site.world).Tidy) :
    result = .ok () ∧ pass.Settles s (H.store site.world) := by
  rcases hsucceeds with ⟨rfl, hledger⟩
  have hreached : Reached H True s { pass with stage := .ended (.ok ()) } site :=
    Or.inr ⟨plan, none, false, hplan, hledger, fun _ => rfl⟩
  have hended := converged_of_reached hreached rfl
  have hconverged : Converged pass.project pass.service (H.store site.world).containers := hended
  rcases hledger.left with ⟨outcomes, hduties, houtcomes, hstock⟩
  have hformed := wellFormed_left hplan hduties houtcomes hstock h htidy
  refine ⟨rfl, hformed, ?_, veiled_eq_outcome hplan hduties houtcomes hstock h⟩
  intro hfree
  refine ⟨hformed.tidy, hformed.regular, hformed.numbers, fun c _ => ?_⟩
  rw [takes_of_converged hconverged hfree]
  exact List.not_mem_nil

/-- On a well-formed store with open gates and numbers left, and with nothing to happen beside the
    pass, every order of moves comes to an end, the pass succeeds, and the store is the same every
    time but for new ids and order. -/
theorem inevitably_settles (H : Host ρ) (project : Project) (service : Service)
    (grace : Option Nat) (marks : Marks) (site : Site ρ) (hpeaceful : H.peaceful site.world)
    (hpending : (H.store site.world).pending = fun _ => none)
    (hformed : (start project service grace marks).WellFormed
      ((start project service grace marks).takes (H.store site.world)) (H.store site.world))
    (hopens : ∀ dependency ∈ service.healthDependencies,
      Opens project.name dependency (H.store site.world).containers)
    (hroom : Numbering.Room (ofService project service (H.store site.world).containers)
      service.desiredScale) :
    Inevitable H.engine (fun result after => result = .ok () ∧
      (start project service grace marks).Settles (H.store site.world) (H.store after.world))
      (start project service grace marks) site := by
  rcases planFor_complete hformed.regular hroom with ⟨plan, hplan⟩
  have hcalm := H.calm_of_peaceful _ hpeaceful
  have hintact : Intact H.forgetful ((start project service grace marks).brief
      (H.store site.world)) True (H.store site.world).containers site.world :=
    intact_of_distinct hcalm hformed.tidy.toDistinct (fun s hs => absurd hs List.not_mem_nil)
      fun _ => ⟨hpeaceful, hpending⟩
  have hbound := inevitable_start project service grace marks hplan (hformed.fit hplan) hopens
    hintact
  refine (hbound.with_kept H.call_tidy ⟨hcalm, hformed.tidy⟩).imp ?_
  rintro result after ⟨hsucceeds, htidy⟩
  exact settles_of_succeeds (H := H.forgetful) hplan hformed hsucceeds htidy.2

end Pass

namespace Sample

open Pass

theorem room_crew (scale : UInt32) (h : (manned scale).desiredScale ≤ 4) :
    Numbering.Room ((scaling scale).listed crewSite.world.store.containers)
      (manned scale).desiredScale := by
  have hhighest : ∀ c ∈ [container, last, idle], c.number ≤ 5 := by decide
  have hbound : 9 < Numbering.bound := by decide
  rw [listed_crew]
  intro _ c hc
  have := hhighest c hc
  omega

/-- The crew is well formed for a pass that does not take the name of the other container. -/
theorem wellFormed_crew (scale : UInt32) {taken : List String} (h : fronting.name ∉ taken) :
    (scaling scale).WellFormed taken crewSite.world.store := by
  refine ⟨tidy_crew, ?_, ?_, ?_⟩
  · rw [listed_crew]
    intro c hc
    rw [List.mem_cons, List.mem_pair] at hc
    rcases hc with rfl | rfl | rfl <;> exact ⟨rfl, Or.inl rfl⟩
  · rw [listed_crew]
    decide
  · rw [outside_crew]
    intro c hc
    rw [List.mem_singleton.mp hc]
    exact h

theorem grown_apart : fronting.name ∉ (scaling 4).takes crewSite.world.store := by
  decide +kernel

theorem shrunk_apart : fronting.name ∉ (scaling 2).takes crewSite.world.store := by
  have hscale : (scaling 2).service.desiredScale = 2 := rfl
  have hmany : ¬[container, last, idle].length ≤ 2 := by decide
  rw [takes, planFor_crew]
  simp only [duties, excess, kept, listed_crew, hscale, Plan.excessOf, Plan.keptOf, if_neg hmany,
    inOrder_crew]
  decide +kernel

end Sample

namespace Pass

/-- A pass that lets a service grow comes to the same store under every order of moves, and so does
    one that lets it shrink. -/
theorem inevitably_settles_sample :
    Inevitable Drill.host.engine (fun result after => result = .ok () ∧
      (Sample.scaling 4).Settles Sample.crewSite.world.store after.world.store)
        (Sample.scaling 4) Sample.crewSite ∧
    Inevitable Drill.host.engine (fun result after => result = .ok () ∧
      (Sample.scaling 2).Settles Sample.crewSite.world.store after.world.store)
        (Sample.scaling 2) Sample.crewSite := by
  refine ⟨?_, ?_⟩
  · exact inevitably_settles Drill.host Sample.project (Sample.manned 4) none Marks.none
      Sample.crewSite ⟨rfl, rfl⟩ rfl (Sample.wellFormed_crew 4 Sample.grown_apart)
      (fun _ hdependency => absurd hdependency List.not_mem_nil) (Sample.room_crew 4 (by decide))
  · exact inevitably_settles Drill.host Sample.project (Sample.manned 2) none Marks.none
      Sample.crewSite ⟨rfl, rfl⟩ rfl (Sample.wellFormed_crew 2 Sample.shrunk_apart)
      (fun _ hdependency => absurd hdependency List.not_mem_nil) (Sample.room_crew 2 (by decide))

end Pass

end Fleet
