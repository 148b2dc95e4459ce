import Fleet.Proofs.Persisting
import Fleet.Proofs.Recovery

/-!
# Stores that no order of moves leaves

Some clashes do not hang on the order of moves at all. If a single container is to be
replaced and one that is kept as it is has the name that the replacement needs, nothing a
pass does takes that name away: the one that has it is at most started, and new containers
have other numbers. The replacement cannot get further than the creation, so it leaves its
container, out of the way at most. As no container is too many, none is removed either.
What there is after a pass is what there was before it, and a pass that succeeds would
have replaced the container.

This holds whoever runs the passes, for every order of moves, and whatever fails beside.

## Main definitions

* `Pass.Jammed`: A container that cannot be replaced.
* `MayRecover`: Some order of moves makes one of so many passes succeed.

## Theorems

* `Pass.jammed_play`: Passes do not succeed on such a store, and leave such a store.
* `not_mayRecover_of_jammed`: So trying again is no help, however often it is done.
-/

namespace Fleet

/-! ### What operations have in hand -/

section Postures

variable {b : Brief} {hand : Hand} {rest : List Step}

theorem Posture.created {number : Nat} (h : Posture b (.create number) hand rest) :
    hand.containers.length ≤ 1 ∧ ∀ e ∈ hand.containers,
      e.labels = Labels.ofInstance b.project b.service.name number b.service.fingerprint := by
  cases h with
  | opening => exact ⟨Nat.zero_le _, fun e he => absurd he List.not_mem_nil⟩
  | barred => exact ⟨Nat.zero_le _, fun e he => absurd he List.not_mem_nil⟩
  | poised hrises =>
      cases hrises
      exact ⟨Nat.zero_le _, fun e he => absurd he List.not_mem_nil⟩
  | raised fresh done todo hrises =>
      cases hrises
      refine ⟨Nat.le_refl _, fun e he => ?_⟩
      rw [List.mem_singleton.mp he]
      rfl
  | risen fresh hrises =>
      cases hrises
      refine ⟨Nat.le_refl _, fun e he => ?_⟩
      rw [List.mem_singleton.mp he]
      rfl

theorem Posture.restarted {c : Container} (h : Posture b (.restart c) hand rest) :
    ∃ d, hand.containers = [d] ∧ d.labels = c.labels ∧ d.name = c.name := by
  cases h with
  | opening => exact ⟨c, rfl, rfl, rfl⟩
  | barred => exact ⟨c, rfl, rfl, rfl⟩
  | started => exact ⟨_, rfl, rfl, rfl⟩
  | poised hrises => cases hrises
  | raised _ _ _ hrises => cases hrises
  | risen _ hrises => cases hrises

/-- A replacement has its container alone in hand, or one under the name of its number. -/
theorem Posture.replacing {c : Container} (h : Posture b (.recreate c) hand rest) :
    (∃ d, hand.containers = [d] ∧ d.labels = c.labels) ∨
      ∃ d ∈ hand.containers, d.name = containerName b.project b.service.name c.number := by
  have hlast : ∀ (number : Nat) (old : List Container) (d : Container),
      Numbering.numberOf c.summary = .ok number →
      d.name = containerName b.project b.service.name number →
      ∃ e ∈ old ++ [d], e.name = containerName b.project b.service.name c.number := by
    intro number old d hnumber hname
    rw [← Container.number_of_ok hnumber] at hname
    exact ⟨d, List.mem_append_right _ (List.mem_singleton_self d), hname⟩
  cases h with
  | opening => exact Or.inl ⟨c, rfl, rfl⟩
  | barred => exact Or.inl ⟨c, rfl, rfl⟩
  | stopped => exact Or.inl ⟨_, rfl, Container.stopped_labels c⟩
  | @poised _ number _ _ hrises =>
      cases hrises
      exact Or.inl ⟨_, rfl, Container.parked_labels b number c⟩
  | raised fresh done todo hrises =>
      cases hrises with
      | recreate _ _ hnumber => exact Or.inr (hlast _ _ _ hnumber rfl)
  | risen fresh hrises =>
      cases hrises with
      | recreate _ _ hnumber => exact Or.inr (hlast _ _ _ hnumber rfl)
  | replaced _ _ _ hnumber => exact Or.inr (hlast _ [] _ hnumber rfl)

end Postures

/-- Operations have no more in hand than they yield, if each one has no more than it yields. -/
theorem card_held_le {accounts : Multiset Account}
    (h : ∀ a ∈ accounts, a.hand.containers.length ≤ a.duty.yield) :
    (held accounts).card ≤ ((accounts.map (·.duty)).map Duty.yield).sum := by
  induction accounts using Multiset.induction_on with
  | empty => exact Nat.le_refl _
  | cons a accounts ih =>
      have hrest := ih fun a' ha' => h a' (Multiset.mem_cons_of_mem ha')
      have hone := h a (Multiset.mem_cons_self a accounts)
      rw [held_cons, Multiset.card_add, Multiset.coe_card, Multiset.map_cons, Multiset.map_cons,
        Multiset.sum_cons]
      omega

namespace Pass

/-- A single container is to be replaced, one that is kept as it is has the name that the
    replacement needs, and no container is too many. -/
structure Jammed (pass : Pass) (cs : List Container) (c : Container) : Prop where
  few : cs.length ≤ pass.service.desiredScale
  mem : c ∈ cs
  due : pass.replaces c = true
  only : ∀ e ∈ cs, e ≠ c → pass.replaces e = false
  taken : ∃ e ∈ cs, e ≠ c ∧ e.name = containerName pass.project.name pass.service.name c.number

variable {pass : Pass} {cs : List Container} {c : Container} {s : Store} {plan : Plan}

/-- No replacement is forced, since not every container is replaced. -/
theorem Jammed.not_forced (h : pass.Jammed cs c) : pass.marks.forces pass.service = false := by
  rcases h.taken with ⟨e, he, hne, _⟩
  exact (Bool.or_eq_false_iff.mp (h.only e he hne)).2

theorem Jammed.not_replaces_new (h : pass.Jammed cs c) {e : Container} {number : Nat}
    (he : e.labels = Labels.ofInstance pass.project.name pass.service.name number
      pass.service.fingerprint) : pass.replaces e = false := by
  refine Bool.or_eq_false_iff.mpr ⟨?_, h.not_forced⟩
  rw [Plan.isDrifted, bne_eq_false_iff_eq, Container.summary, he]
  exact Labels.find?_fingerprint_ofInstance

section Jam

variable (hs : Homely pass.project.name pass.service.name s) (h : pass.Jammed s.containers c)

include hs h

theorem Jammed.kept_eq : pass.kept s.containers = s.containers := by
  rw [kept, hs.listed_eq, Plan.keptOf, if_pos h.few]

theorem Jammed.excess_eq : pass.excess s.containers = [] := by
  rw [excess, hs.listed_eq, Plan.excessOf, if_pos h.few]

/-- Besides the replacement there are only creations and starts. -/
theorem Jammed.other_duty {duty : Duty} (hduty : duty ∈ pass.duties plan.missing s.containers)
    (hfound : c ∉ duty.found) :
    (∃ number, duty = .create number) ∨ ∃ e ∈ s.containers, e ≠ c ∧ duty = .restart e := by
  rcases mem_duties hduty with ⟨number, _, rfl⟩ | ⟨e, he, _⟩ | ⟨e, he, _, _, rfl⟩ |
    ⟨e, he, hreplaces, rfl⟩
  · exact Or.inl ⟨number, rfl⟩
  · rw [h.excess_eq hs] at he
    exact absurd he List.not_mem_nil
  · rw [h.kept_eq hs] at he
    refine Or.inr ⟨e, he, ?_, rfl⟩
    rintro rfl
    exact hfound (List.mem_singleton_self e)
  · rw [h.kept_eq hs] at he
    have hne : e ≠ c := by
      rintro rfl
      exact hfound (List.mem_singleton_self e)
    rw [h.only e he hne] at hreplaces
    cases hreplaces

variable {a : Account} {others : Multiset Account} (ha : a.duty = .recreate c)
  (hduties : a.duty ::ₘ others.map (·.duty) =
    (pass.duties plan.missing s.containers : Multiset Duty))
  (hvalid : Valid (pass.brief s) others)

include ha hduties

theorem Jammed.duty_of_other {other : Account} (hother : other ∈ others) :
    (∃ number, other.duty = .create number) ∨
      ∃ e ∈ s.containers, e ≠ c ∧ other.duty = .restart e := by
  have hmem : other.duty ∈ others.map (·.duty) := Multiset.mem_map_of_mem _ hother
  have hduty : other.duty ∈ pass.duties plan.missing s.containers := by
    rw [← Multiset.mem_coe, ← hduties]
    exact Multiset.mem_cons_of_mem hmem
  refine h.other_duty hs hduty
    (not_mem_found_of_other hs.tidy.ids_nodup hduties.symm hmem ?_)
  rw [ha]
  exact List.mem_singleton_self c

include hvalid

/-- No other operation has a container in hand that would be replaced, or too many. -/
theorem Jammed.hand_of_other {other : Account} (hother : other ∈ others) :
    other.hand.containers.length ≤ other.duty.yield ∧
      ∀ e ∈ other.hand.containers, pass.replaces e = false := by
  have hposture := hvalid other hother
  rcases h.duty_of_other hs ha hduties hother with ⟨number, hduty⟩ | ⟨e, he, hne, hduty⟩
  · rw [hduty] at hposture ⊢
    rcases hposture.created with ⟨hlength, hlabels⟩
    exact ⟨hlength, fun e he => h.not_replaces_new (hlabels e he)⟩
  · rw [hduty] at hposture ⊢
    rcases hposture.restarted with ⟨d, hhand, hlabels, _⟩
    rw [hhand]
    refine ⟨Nat.le_refl _, fun d' hd' => ?_⟩
    rw [List.mem_singleton.mp hd', replaces_congr hlabels]
    exact h.only e he hne

/-- The name is still taken, by a container that was left alone or at most started. -/
theorem Jammed.taken_by_other :
    ∃ e ∈ (pass.untouched s.containers : Multiset Container) + held others,
      e.name = containerName pass.project.name pass.service.name c.number := by
  rcases h.taken with ⟨e, he, hne, hname⟩
  have hkept : e ∈ pass.kept s.containers := by
    rw [h.kept_eq hs]
    exact he
  cases hupkeep : pass.upkeepDuty e with
  | none =>
      refine ⟨e, Multiset.mem_add.mpr (Or.inl (List.mem_append_right _ ?_)), hname⟩
      exact List.mem_filter.mpr ⟨hkept, Option.isNone_iff_eq_none.mpr hupkeep⟩
  | some duty =>
      rcases upkeepDuty_cases hupkeep with ⟨hreplaces, _⟩ | ⟨_, _, rfl⟩
      · rw [h.only e he hne] at hreplaces
        cases hreplaces
      have hmem : Duty.restart e ∈ (pass.duties plan.missing s.containers : Multiset Duty) :=
        Multiset.mem_coe.mpr (List.mem_append_right _ (List.mem_filterMap.mpr ⟨e, hkept, hupkeep⟩))
      rw [← hduties, ha] at hmem
      rcases Multiset.mem_cons.mp hmem with heq | hmem
      · cases heq
      rcases Multiset.mem_map.mp hmem with ⟨other, hother, hduty⟩
      have hposture := hvalid other hother
      rw [hduty] at hposture
      rcases hposture.restarted with ⟨d, hhand, _, hname'⟩
      refine ⟨d, Multiset.mem_add.mpr (Or.inr (Multiset.mem_bind.mpr ⟨other, hother, ?_⟩)),
        hname'.trans hname⟩
      rw [hhand]
      exact List.mem_singleton_self d

/-- Nothing but the replacement's container is to be replaced. -/
theorem Jammed.not_replaces_rest :
    ∀ e ∈ (pass.untouched s.containers : Multiset Container) + held others,
      pass.replaces e = false := by
  intro e he
  rcases Multiset.mem_add.mp he with he | he
  · rw [hs.untouched_eq] at he
    exact (upkeepDuty_eq_none (Option.isNone_iff_eq_none.mp (List.mem_filter.mp he).2)).1
  · rcases Multiset.mem_bind.mp he with ⟨other, hother, he⟩
    exact (h.hand_of_other hs ha hduties hvalid hother).2 e he

/-- The replacement has nothing but its container in hand, since a new one would have a name that
    is taken. -/
theorem Jammed.hand_of_replacement (hposture : Posture (pass.brief s) a.duty a.hand a.rest)
    (hnames : (cs.map (·.name)).Nodup)
    (hstock : (cs : Multiset Container) =
      a.hand.containers + (pass.untouched s.containers + held others)) :
    ∃ d, a.hand.containers = [d] ∧ d.labels = c.labels := by
  rw [ha] at hposture
  rcases hposture.replacing with hone | ⟨d, hd, hname'⟩
  · exact hone
  · rcases h.taken_by_other hs ha hduties hvalid with ⟨e, he, hname⟩
    have hnodup : ((cs : Multiset Container).map (·.name)).Nodup := by
      rw [Multiset.map_coe]
      exact Multiset.coe_nodup.mpr hnames
    rw [hstock, Multiset.map_add, Multiset.nodup_add] at hnodup
    have hd' := Multiset.mem_map_of_mem (fun c : Container => c.name) (Multiset.mem_coe.mpr hd)
    have he' := Multiset.mem_map_of_mem (fun c : Container => c.name) he
    rw [hname] at he'
    exact absurd he' (Multiset.disjoint_left.mp hnodup.2.2 (hname' ▸ hd'))

end Jam

/-- Containers that are accounted for are jammed if those of the beginning were. -/
theorem jammed_of_accounted (hplan : pass.planFor s.containers = .ok plan)
    (hs : Homely pass.project.name pass.service.name s) (h : pass.Jammed s.containers c)
    (hnames : (cs.map (·.name)).Nodup)
    (haccounted : Accounted (pass.brief s) (pass.untouched s.containers)
      (pass.duties plan.missing s.containers) cs) : ∃ d, pass.Jammed cs d := by
  rcases haccounted with ⟨accounts, hduties, hvalid, hstock⟩
  have hkept : c ∈ pass.kept s.containers := by
    rw [h.kept_eq hs]
    exact h.mem
  have hmem : Duty.recreate c ∈ accounts.map (·.duty) := by
    rw [hduties]
    exact mem_duties_of_due plan.missing ⟨hkept, h.due⟩
  rcases Multiset.mem_map.mp hmem with ⟨a, ha, hduty⟩
  rcases Multiset.exists_cons_of_mem ha with ⟨others, rfl⟩
  rw [Multiset.map_cons] at hduties
  rcases valid_cons.mp hvalid with ⟨hposture, hothers⟩
  rw [held_cons, add_left_comm] at hstock
  rcases h.taken_by_other hs hduty hduties hothers with ⟨e, he, hname⟩
  rcases h.hand_of_replacement hs hduty hduties hothers hposture hnames hstock with
    ⟨d, hhand, hlabels⟩
  rw [hhand] at hstock
  have hnumber : d.number = c.number :=
    Container.number_of_ok (numberOf_congr hlabels (hs.native c h.mem).numbered)
  have hrest := h.not_replaces_rest hs hduty hduties hothers
  have hmem' : ∀ e, e ∈ cs ↔ e = d ∨
      e ∈ (pass.untouched s.containers : Multiset Container) + held others := by
    intro e
    rw [← Multiset.mem_coe, hstock, Multiset.mem_add, Multiset.mem_coe, List.mem_singleton]
  have hdue : pass.replaces d = true := (replaces_congr hlabels).trans h.due
  refine ⟨d, ?_, (hmem' d).mpr (Or.inl rfl), hdue, ?_, e, (hmem' e).mpr (Or.inr he), ?_, ?_⟩
  · -- The duties yield as many containers as the scale asks for beside those left alone, and
    -- nobody has more in hand than that.
    have hyield := yield_duties hplan
    have hheld := card_held_le fun other hother =>
      (h.hand_of_other hs hduty hduties hothers hother).1
    have hsum := congrArg (fun duties : Multiset Duty => (duties.map Duty.yield).sum) hduties
    have hcard := congrArg Multiset.card hstock
    simp only [Multiset.map_cons, Multiset.sum_cons, hduty, Duty.yield, Multiset.map_coe,
      Multiset.sum_coe] at hsum
    simp only [Multiset.card_add, Multiset.coe_card, List.length_singleton,
      hs.untouched_eq] at hcard
    omega
  · intro e he hne
    exact hrest e (((hmem' e).mp he).resolve_left hne)
  · rintro rfl
    rw [hrest e he] at hdue
    cases hdue
  · rw [hnumber]
    exact hname

/-- What is jammed is not in line with its service. -/
theorem Jammed.not_converged (h : pass.Jammed cs c)
    (hnative : c.Native pass.project.name pass.service.name) :
    ¬Converged pass.project pass.service cs := by
  intro hconverged
  have hcurrent := (hconverged.each c (List.mem_filter.mpr ⟨h.mem, hnative.own⟩)).current
  have hdue := h.due
  rw [replaces, h.not_forced, Bool.or_false, Plan.isDrifted, Container.summary, hcurrent,
    bne_self_eq_false] at hdue
  cases hdue

/-- Under every order of moves, and whatever fails, a pass on a jammed store does not succeed, and
    the store is jammed at every moment. -/
theorem jammed_play {ρ : Type} (H : Host ρ) (project : Project) (service : Service)
    (grace : Option Nat) (marks : Marks) (site : Site ρ) (moves : List Move)
    (hcalm : H.calm site.world) (hs : Homely project.name service.name (H.store site.world))
    (h : (start project service grace marks).Jammed (H.store site.world).containers c) :
    (play H.engine moves (start project service grace marks) site).1.result? ≠ some (.ok ()) ∧
      ∃ d, (start project service grace marks).Jammed
        (H.store (play H.engine moves (start project service grace marks) site).2.world).containers
        d := by
  have hreached := reached_of_distinct H.forgetful project service grace marks site moves
    hcalm hs.tidy.toDistinct fun s hs => absurd hs List.not_mem_nil
  have hafter := homely_play H project service grace marks site moves hcalm hs
  have hjammed : ∃ d, (start project service grace marks).Jammed
      (H.store (play H.engine moves (start project service grace marks) site).2.world).containers
      d := by
    have hreached' := hreached
    rw [play_fields] at hreached'
    rcases accounted_of_reached hreached' _ (List.mem_singleton_self _) with
      hsame | ⟨plan, hplan, haccounted⟩
    · refine ⟨c, ?_⟩
      have hsame' : (H.store (play H.engine moves (start project service grace marks)
        site).2.world).containers = (H.store site.world).containers := hsame
      rw [hsame']
      exact h
    · exact jammed_of_accounted hplan hs h hafter.tidy.names haccounted
  refine ⟨fun hok => ?_, hjammed⟩
  rcases hjammed with ⟨d, hd⟩
  exact hd.not_converged (hafter.native d hd.mem)
    (converged_of_play (H := H.forgetful) hreached hok)

end Pass

/-- Some order of moves makes one of that many passes in a row succeed, whoever runs them, and
    whatever fails beside. -/
def MayRecover (project : Project) (service : Service) (grace : Option Nat) (marks : Marks) :
    Nat → Store → Prop
  | 0, _ => False
  | n + 1, s => ∃ (ρ : Type) (H : Host ρ) (site : Site ρ) (moves : List Move),
      H.calm site.world ∧ H.store site.world = s ∧
      let after := Pass.play H.engine moves (.start project service grace marks) site
      (after.1.result? = some (.ok ()) ∨
        MayRecover project service grace marks n (H.store after.2.world))

theorem RecoversWithin.mayRecover {project : Project} {service : Service} {grace : Option Nat}
    {marks : Marks} {n : Nat} {s : Store}
    (h : RecoversWithin project service grace marks n s) :
    MayRecover project service grace marks n s := by
  induction n generalizing s with
  | zero => exact h
  | succ n ih =>
      rcases (h Store Store.host ⟨s, .fresh, false⟩ trivial rfl).exists_play with
        ⟨moves, result, hresult, hok | hrecovers⟩
      · rw [hok] at hresult
        exact ⟨Store, Store.host, ⟨s, .fresh, false⟩, moves, trivial, rfl, Or.inl hresult⟩
      · exact ⟨Store, Store.host, ⟨s, .fresh, false⟩, moves, trivial, rfl, Or.inr (ih hrecovers)⟩

/-- On a jammed store trying again is no help, however often it is done. -/
theorem not_mayRecover_of_jammed {project : Project} {service : Service} {grace : Option Nat}
    {marks : Marks} (n : Nat) {s : Store} {c : Container}
    (hs : Homely project.name service.name s)
    (h : (Pass.start project service grace marks).Jammed s.containers c) :
    ¬MayRecover project service grace marks n s := by
  induction n generalizing s c with
  | zero => exact id
  | succ n ih =>
      rintro ⟨ρ, H, site, moves, hcalm, rfl, hrecovers⟩
      rcases Pass.jammed_play H project service grace marks site moves hcalm hs h with
        ⟨hfailed, d, hd⟩
      rcases hrecovers with hok | hrecovers
      · exact hfailed hok
      · exact ih (Pass.homely_play H project service grace marks site moves hcalm hs) hd hrecovers

end Fleet
