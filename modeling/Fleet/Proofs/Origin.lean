import Fleet.Proofs.Convergence

/-!
# Where containers come from

What a successful pass leaves behind is known duty by duty. Here it is said container by
container: each one that is there afterwards was no concern of the pass, or was kept and
runs, or is new, and what was kept is there or has been replaced (`Pass.Renders`).

A container that has been removed or replaced is gone, and its id with it. The containers around it
have other ids because ids were distinct, those that are new because none of the ids in
use is given out again.

## Main definitions

* `Pass.Renders`: What a successful pass makes of a store, container by container.
* `Pass.Discharged`: What the duties of a pass have come to.

## Theorems

* `kept_cases`: What becomes of a container that is kept and not replaced.
* `renders_of_reached`: A successful pass has rendered its store.
* `Pass.Renders.gone`: A container that is not kept, or is replaced, is gone.
-/

namespace Fleet

variable {ρ : Type}

/-- A container that is the same but for its id, whatever id it is given, has been given one. -/
theorem new_of_risen {b : Brief} {duty : Duty} {number : Nat} {fresh : String}
    (hrisen : ∀ id, duty.left b id = [.risen b number id])
    (h : b.New fresh ∨ ∀ id, duty.left b id = duty.left b fresh) : b.New fresh := by
  refine h.resolve_right fun hsame => ?_
  have hid : ∀ id, id = fresh := by
    intro id
    have heq := hsame id
    rw [hrisen, hrisen] at heq
    exact congrArg Container.id (List.cons.inj heq).1
  exact absurd ((hid "").trans (hid "a").symm) (by decide)

namespace Pass

variable {pass : Pass} {s : Store} {ds : List Container}

/-- What becomes of containers that are kept and not replaced: they are left alone or started. -/
theorem kept_cases {cs : List Container} (missing : List Nat) {c : Container}
    (hkept : c ∈ pass.kept cs) (hreplaces : pass.replaces c = false) :
    c ∈ pass.idle cs ∨ Duty.restart c ∈ pass.duties missing cs := by
  by_cases hrunning : c.state.isRunning = true
  · left
    refine List.mem_filter.mpr ⟨hkept, ?_⟩
    rw [upkeepDuty, hreplaces, hrunning]
    rfl
  · right
    refine List.mem_append_right _ (List.mem_filterMap.mpr ⟨c, hkept, ?_⟩)
    rw [upkeepDuty, hreplaces, Bool.eq_false_iff.mpr hrunning]
    rfl

/-- What is not the concern of a pass is what it leaves alone and is not its own. -/
theorem outside_of_own {cs : List Container} {own : Multiset Container}
    (hstock : (ds : Multiset Container) = ↑(pass.untouched cs) + own)
    (hown : ∀ c ∈ own, pass.filter.accepts c.labels = true) :
    (pass.outside ds : Multiset Container) = pass.outside cs := by
  have hself : (pass.outside cs).filter (fun c => !pass.filter.accepts c.labels) =
      pass.outside cs := List.filter_eq_self.mpr fun c hc => (List.mem_filter.mp hc).2
  have hidle : (pass.idle cs).filter (fun c => !pass.filter.accepts c.labels) = [] := by
    refine List.filter_eq_nil_iff.mpr fun c hc => ?_
    rw [(mem_idle hc).1]
    exact Bool.false_ne_true
  have hnone : Multiset.filter (fun c => (!pass.filter.accepts c.labels) = true) own = 0 := by
    refine Multiset.filter_eq_nil.mpr fun c hc => ?_
    rw [hown c hc]
    exact Bool.false_ne_true
  conv_lhs => rw [Pass.outside, ← filter_coe_bool, hstock]
  rw [Multiset.filter_add, filter_coe_bool, untouched, List.filter_append, hself, hidle,
    List.append_nil, hnone, add_zero]

/-- What a successful pass makes of a store. -/
structure Renders (pass : Pass) (s : Store) (ds : List Container) : Prop where
  -- What is not its concern is there as it was.
  outside : (pass.outside ds : Multiset Container) = pass.outside s.containers
  -- What is there was not its concern, or was kept and runs, or is new.
  origin : ∀ d ∈ ds, d ∈ pass.outside s.containers ∨
    (∃ c ∈ pass.kept s.containers, pass.replaces c = false ∧ d = { c with state := .running }) ∨
    ∃ number fresh, (pass.brief s).New fresh ∧ d = .risen (pass.brief s) number fresh
  -- What was kept and not replaced is there and runs.
  spared : ∀ c ∈ pass.kept s.containers, pass.replaces c = false →
    { c with state := .running } ∈ ds
  -- What was replaced had a number, which a new container has now.
  replaced : ∀ c ∈ pass.kept s.containers, pass.replaces c = true →
    ∃ number fresh, Numbering.numberOf c.summary = .ok number ∧ (pass.brief s).New fresh ∧
      .risen (pass.brief s) number fresh ∈ ds

/-- What the duties of a pass have come to on a store: what nobody was to touch, and what each duty
    has left behind. -/
structure Discharged (pass : Pass) (s : Store) (ds : List Container) (plan : Plan)
    (outcomes : Multiset (Duty × String)) : Prop where
  duties : outcomes.map (·.1) = (pass.duties plan.missing s.containers : Multiset Duty)
  steps : ∀ o ∈ outcomes, ∃ steps, (o.1.operation (pass.brief s)).steps = .ok steps
  fresh : ∀ o ∈ outcomes, (pass.brief s).New o.2 ∨
    ∀ fresh, o.1.left (pass.brief s) fresh = o.1.left (pass.brief s) o.2
  stock : (ds : Multiset Container) = ↑(pass.untouched s.containers) +
    outcomes.bind fun o => (o.1.left (pass.brief s) o.2 : Multiset Container)

namespace Discharged

variable {plan : Plan} {outcomes : Multiset (Duty × String)}

theorem mem_duties (h : pass.Discharged s ds plan outcomes) {o : Duty × String}
    (ho : o ∈ outcomes) : o.1 ∈ pass.duties plan.missing s.containers := by
  rw [← Multiset.mem_coe, ← h.duties]
  exact Multiset.mem_map_of_mem _ ho

theorem exists_outcome (h : pass.Discharged s ds plan outcomes) {duty : Duty}
    (hduty : duty ∈ pass.duties plan.missing s.containers) : ∃ o ∈ outcomes, o.1 = duty := by
  rw [← Multiset.mem_coe, ← h.duties] at hduty
  exact Multiset.mem_map.mp hduty

theorem mem_iff (h : pass.Discharged s ds plan outcomes) {d : Container} :
    d ∈ ds ↔ d ∈ pass.untouched s.containers ∨
      ∃ o ∈ outcomes, d ∈ o.1.left (pass.brief s) o.2 := by
  rw [← Multiset.mem_coe, h.stock, Multiset.mem_add, Multiset.mem_bind]
  rfl

/-- A replacement that has been carried out leaves a new container with the number of the old
    one. -/
theorem recreated (h : pass.Discharged s ds plan outcomes) {o : Duty × String} (ho : o ∈ outcomes)
    {c : Container} (heq : o.1 = .recreate c) :
    ∃ number, Numbering.numberOf c.summary = .ok number ∧ (pass.brief s).New o.2 ∧
      o.1.left (pass.brief s) o.2 = [.risen (pass.brief s) number o.2] := by
  rcases h.steps o ho with ⟨steps, hsteps⟩
  have hnew := h.fresh o ho
  rw [heq] at hsteps hnew ⊢
  rcases Duty.steps_cases hsteps with ⟨_, heq, _⟩ | ⟨_, heq, _⟩ | ⟨_, heq, _⟩ |
    ⟨_, number, heq, hnumber, _⟩
  · cases heq
  · cases heq
  · cases heq
  · cases heq
    have hrisen : ∀ id, (Duty.recreate c).left (pass.brief s) id =
        [.risen (pass.brief s) number id] := fun id => by simp only [Duty.left, hnumber]
    exact ⟨number, hnumber, new_of_risen hrisen hnew, hrisen o.2⟩

/-- What is not the concern of the pass is there as it was. -/
theorem outside_eq (h : pass.Discharged s ds plan outcomes) :
    (pass.outside ds : Multiset Container) = pass.outside s.containers := by
  refine outside_of_own h.stock fun c hc => ?_
  rcases Multiset.mem_bind.mp hc with ⟨o, ho, hc⟩
  rcases h.steps o ho with ⟨steps, hsteps⟩
  exact ((left_upToDate (h.mem_duties ho) hsteps o.2).2 c hc).1

/-- What is there was not the concern of the pass, or was kept and runs, or is new. -/
theorem origin (h : pass.Discharged s ds plan outcomes) {d : Container} (hd : d ∈ ds) :
    d ∈ pass.outside s.containers ∨
    (∃ c ∈ pass.kept s.containers, pass.replaces c = false ∧ d = { c with state := .running }) ∨
    ∃ number fresh, (pass.brief s).New fresh ∧ d = .risen (pass.brief s) number fresh := by
  rcases h.mem_iff.mp hd with hd | ⟨o, ho, hd⟩
  · rcases List.mem_append.mp hd with hd | hd
    · exact Or.inl hd
    · rcases List.mem_filter.mp hd with ⟨hkept, hnone⟩
      have hreplaces := (upkeepDuty_eq_none (Option.isNone_iff_eq_none.mp hnone)).1
      refine Or.inr (Or.inl ⟨d, hkept, hreplaces, ?_⟩)
      rw [← (mem_idle hd).2.running]
  · rcases Pass.mem_duties (h.mem_duties ho) with ⟨number, _, heq⟩ | ⟨c, _, heq⟩ |
      ⟨c, hc, hnot, _, heq⟩ | ⟨c, _, _, heq⟩
    · have hrisen : ∀ id, o.1.left (pass.brief s) id = [.risen (pass.brief s) number id] := by
        rw [heq]
        exact fun _ => rfl
      rw [hrisen] at hd
      exact Or.inr (Or.inr ⟨number, o.2, new_of_risen hrisen (h.fresh o ho),
        List.mem_singleton.mp hd⟩)
    · rw [heq] at hd
      exact absurd hd List.not_mem_nil
    · rw [heq] at hd
      exact Or.inr (Or.inl ⟨c, hc, hnot, List.mem_singleton.mp hd⟩)
    · rcases h.recreated ho heq with ⟨number, _, hnew, hleft⟩
      rw [hleft] at hd
      exact Or.inr (Or.inr ⟨number, o.2, hnew, List.mem_singleton.mp hd⟩)

/-- What was kept and not replaced is there and runs. -/
theorem spared (h : pass.Discharged s ds plan outcomes) {c : Container}
    (hkept : c ∈ pass.kept s.containers) (hreplaces : pass.replaces c = false) :
    { c with state := .running } ∈ ds := by
  rcases kept_cases plan.missing hkept hreplaces with hidle | hrestart
  · have hrunning := (mem_idle hidle).2.running
    have hself : { c with state := .running } = c := by rw [← hrunning]
    rw [hself]
    exact h.mem_iff.mpr (Or.inl (List.mem_append_right _ hidle))
  · rcases h.exists_outcome hrestart with ⟨o, ho, heq⟩
    refine h.mem_iff.mpr (Or.inr ⟨o, ho, ?_⟩)
    rw [heq]
    exact List.mem_singleton_self _

/-- What was replaced had a number, which a new container has now. -/
theorem replaced (h : pass.Discharged s ds plan outcomes) {c : Container}
    (hkept : c ∈ pass.kept s.containers) (hreplaces : pass.replaces c = true) :
    ∃ number fresh, Numbering.numberOf c.summary = .ok number ∧ (pass.brief s).New fresh ∧
      .risen (pass.brief s) number fresh ∈ ds := by
  have hduty : Duty.recreate c ∈ pass.duties plan.missing s.containers :=
    List.mem_append_right _ (List.mem_filterMap.mpr ⟨c, hkept, if_pos hreplaces⟩)
  rcases h.exists_outcome hduty with ⟨o, ho, heq⟩
  rcases h.recreated ho heq with ⟨number, hnumber, hnew, hleft⟩
  refine ⟨number, o.2, hnumber, hnew, h.mem_iff.mpr (Or.inr ⟨o, ho, ?_⟩)⟩
  rw [hleft]
  exact List.mem_singleton_self _

end Discharged

/-- A successful pass has rendered its store. -/
theorem renders_of_reached {H : Host ρ} {fair : Prop} {site : Site ρ}
    (h : Reached H fair s pass site) (hok : pass.result? = some (.ok ())) :
    pass.Renders s (H.store site.world).containers := by
  rcases left_of_ok h hok with ⟨plan, outcomes, _, hduties, houtcomes, hstock⟩
  have hdischarged : pass.Discharged s (H.store site.world).containers plan outcomes :=
    ⟨hduties, fun o ho => (houtcomes o ho).1, fun o ho => (houtcomes o ho).2, hstock⟩
  exact ⟨hdischarged.outside_eq, fun _ hd => hdischarged.origin hd,
    fun _ hkept hreplaces => hdischarged.spared hkept hreplaces,
    fun _ hkept hreplaces => hdischarged.replaced hkept hreplaces⟩

namespace Renders

/-- Containers that are kept have been listed. -/
theorem mem_of_kept {cs : List Container} {c : Container} (hc : c ∈ pass.kept cs) : c ∈ cs :=
  (mem_listed.mp (mem_listed_of_kept hc)).1

/-- A container that is there has the id of one that was there, or a new one. -/
theorem id_cases (h : pass.Renders s ds) {d : Container} (hd : d ∈ ds) :
    (∃ c ∈ s.containers, c.id = d.id) ∨ s.supply.Comes d.id := by
  rcases h.origin d hd with hout | ⟨c, hc, _, rfl⟩ | ⟨number, fresh, hnew, rfl⟩
  · exact Or.inl ⟨d, (List.mem_filter.mp hout).1, rfl⟩
  · exact Or.inl ⟨c, mem_of_kept hc, rfl⟩
  · exact Or.inr hnew.2

/-- A container of the service that is not kept, or is replaced, is gone. -/
theorem gone (h : pass.Renders s ds) (hdistinct : s.Distinct) {c : Container}
    (hlisted : c ∈ pass.listed s.containers)
    (hgoes : c ∈ pass.kept s.containers → pass.replaces c = true) : ∀ d ∈ ds, d.id ≠ c.id := by
  rcases mem_listed.mp hlisted with ⟨hc, haccepts⟩
  have hsame : ∀ e ∈ s.containers, e.id = c.id → e = c := fun e he =>
    List.inj_on_of_nodup_map hdistinct.nodup he hc
  intro d hd hid
  rcases h.origin d hd with hout | ⟨e, he, hnot, rfl⟩ | ⟨number, fresh, hnew, rfl⟩
  · rcases List.mem_filter.mp hout with ⟨hmem, hnot⟩
    rw [hsame d hmem hid, haccepts] at hnot
    cases hnot
  · have heq := hsame e (mem_of_kept he) hid
    rw [heq, hgoes (heq ▸ he)] at hnot
    cases hnot
  · have hknown : fresh ∈ ids s.containers := mem_ids.mpr ⟨c, Multiset.mem_coe.mpr hc, hid.symm⟩
    exact hnew.1 hknown

end Renders

end Pass

end Fleet
