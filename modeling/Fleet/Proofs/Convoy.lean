import Fleet.Proofs.Amid
import Mathlib.Algebra.Order.BigOperators.Group.Finset
import Mathlib.Data.Fintype.BigOperators

/-!
# Passes side by side

Nothing keeps two callers from running passes over different services at the same time, and
the passes then share a store without knowing of each other. A convoy is any number of such
passes on one world, and what happens to it is any one of them making a move.

Labels tell the containers of the services apart, so no pass ever touches a container of
another one. Names are another matter. They live in one flat space, and a name is put
together from the names of project and service with underscores that either may contain, so
two services can lay claim to one name. This is the only way in which they can get into each
other's way: if no name that one pass takes is taken by another pass or held by a container
of somebody else, all of them are bound to succeed, and each comes to what it would have come
to alone.

At every moment the store is divided into what each pass has in hand and what nobody does
(`Convoy.Marches`). Where one of them makes a move it does so amid what the others have in
hand, and the others find themselves amid other containers afterwards. All moves are counted
together, so they come to an end.

## Main definitions

* `Charge`: What a pass is begun for.
* `Convoy`: Passes side by side on one world.
* `Convoy.Inevitable`: Every order of the moves of all passes comes to an end at which a fact
  holds.
* `Convoy.Undisturbed`: All passes succeed and come to what they would have come to alone.

## Theorems

* `stock_split`: Every container belongs to one of the services or to none.
* `Marches.step`: A move of one pass keeps where all of them stand.
* `undisturbed_of_apart`: Passes that take different names do not disturb each other.
* `not_undisturbed_sample`: Passes over different services that take one name do.
-/

namespace Fleet

variable {ρ ι : Type}

/-- What a pass is begun for. -/
structure Charge where
  project : Project
  service : Service
  grace : Option Nat
  marks : Marks

namespace Charge

/-- The pass at its beginning. -/
def pass (charge : Charge) : Pass :=
  .start charge.project charge.service charge.grace charge.marks

/-- A pass that can succeed: its service waits for no health, its containers have distinct numbers
    and names that go with them, and there are numbers left for those that are missing. -/
structure Feasible (charge : Charge) (s : Store) : Prop where
  ungated : charge.service.healthDependencies = []
  regular : ∀ c ∈ charge.pass.listed s.containers,
    c.Regular charge.project.name charge.service.name
  numbers : ((charge.pass.listed s.containers).map (·.number)).Nodup
  room : Numbering.Room (charge.pass.listed s.containers) charge.service.desiredScale

/-- A pass alone on a site is bound to succeed, and comes to the containers of its service that are
    in a store, but for new ids and order. -/
def AsAlone (H : Host ρ) (charge : Charge) (site : Site ρ) (s : Store) : Prop :=
  Pass.Inevitable H.engine (fun result after => result = .ok () ∧
    ((ofService charge.project charge.service s.containers).map
      (·.veiled ((H.store site.world).containers.map (·.id)))).Perm
    ((ofService charge.project charge.service (H.store after.world).containers).map
      (·.veiled ((H.store site.world).containers.map (·.id))))) charge.pass site

end Charge

/-- A pass beside others, with what it shares with nobody. -/
structure Member where
  pass : Pass
  channel : Channel
  recreated : Bool

/-- The site of a pass in the world that it shares. -/
def Member.site (member : Member) (w : ρ) : Site ρ := ⟨w, member.channel, member.recreated⟩

/-- Passes side by side on one world. -/
structure Convoy (ι ρ : Type) where
  world : ρ
  members : ι → Member

namespace Convoy

/-- Passes at their beginnings. -/
def start (charge : ι → Charge) (channel : ι → Channel) (w : ρ) : Convoy ι ρ :=
  ⟨w, fun i => ⟨(charge i).pass, channel i, false⟩⟩

variable [DecidableEq ι]

/-- One of the passes makes a move. -/
def step (E : Engine ρ) (i : ι) (move : Move) (convoy : Convoy ι ρ) : Convoy ι ρ :=
  let member := convoy.members i
  let next := member.pass.step E move (member.site convoy.world)
  ⟨next.2.world,
    Function.update convoy.members i ⟨next.1, next.2.channel, next.2.recreated⟩⟩

/-- Whichever enabled moves the passes make, and in whatever order, all of them come to their ends,
    and a fact holds then. -/
inductive Inevitable (E : Engine ρ) (Q : Convoy ι ρ → Prop) : Convoy ι ρ → Prop
  -- All passes are at their ends.
  | ended {convoy : Convoy ι ρ} : (∀ i, (convoy.members i).pass.result? ≠ none) → Q convoy →
    Inevitable E Q convoy
  -- Some pass goes on, and every way that any of them can go is bound to end.
  | later {convoy : Convoy ι ρ} : (∃ i move, (convoy.members i).pass.Enabled move) →
    (∀ i move, (convoy.members i).pass.Enabled move →
      Inevitable E Q (convoy.step E i move)) →
    Inevitable E Q convoy

theorem Inevitable.of_ended {E : Engine ρ} {Q : Convoy ι ρ → Prop} {convoy : Convoy ι ρ}
    (h : Inevitable E Q convoy) (hended : ∀ i, (convoy.members i).pass.result? ≠ none) :
    Q convoy := by
  cases h with
  | ended _ hQ => exact hQ
  | later hmove _ =>
      rcases hmove with ⟨i, move, henabled⟩
      rcases Option.ne_none_iff_exists'.mp (hended i) with ⟨result, hresult⟩
      exact absurd henabled (Pass.not_enabled_of_result hresult move)

theorem Inevitable.step {E : Engine ρ} {Q : Convoy ι ρ → Prop} {convoy : Convoy ι ρ}
    (h : Inevitable E Q convoy) (i : ι) (move : Move)
    (hmove : (convoy.members i).pass.Enabled move) : Inevitable E Q (convoy.step E i move) := by
  cases h with
  | ended hended _ =>
      rcases Option.ne_none_iff_exists'.mp (hended i) with ⟨result, hresult⟩
      exact absurd hmove (Pass.not_enabled_of_result hresult move)
  | later _ hrest => exact hrest i move hmove

/-- Whatever the order of their moves, all passes succeed, and every service has the containers that
    it would have if its pass had been alone. -/
def Undisturbed (H : Host ρ) (charge : ι → Charge) (channel : ι → Channel) (w : ρ) : Prop :=
  Inevitable H.engine (fun convoy => ∀ i,
    (convoy.members i).pass.result? = some (.ok ()) ∧
      (charge i).AsAlone H ⟨w, channel i, false⟩ (H.store convoy.world)) (start charge channel w)

/-! ### Who has what in hand -/

section Hands

variable [Fintype ι] {rest : Multiset Container} {own : ι → Multiset Container}

/-- What is around one pass: the containers of nobody, and what the others have in hand. -/
def around (rest : Multiset Container) (own : ι → Multiset Container) (i : ι) :
    Multiset Container := rest + ∑ j ∈ Finset.univ.erase i, own j

theorem around_add (rest : Multiset Container) (own : ι → Multiset Container) (i : ι) :
    around rest own i + own i = rest + ∑ j, own j := by
  rw [around, add_assoc, Finset.sum_erase_add _ _ (Finset.mem_univ i)]

theorem around_update (rest : Multiset Container) (own : ι → Multiset Container) (i : ι)
    (hand : Multiset Container) :
    around rest (Function.update own i hand) i = around rest own i := by
  unfold around
  congr 1
  exact Finset.sum_congr rfl fun j hj =>
    Function.update_of_ne (Finset.ne_of_mem_erase hj) hand own

theorem mem_around {i : ι} {c : Container} (h : c ∈ around rest own i) :
    c ∈ rest ∨ ∃ j, j ≠ i ∧ c ∈ own j := by
  rcases Multiset.mem_add.mp h with h | h
  · exact Or.inl h
  · rcases Multiset.mem_sum.mp h with ⟨j, hj, hc⟩
    exact Or.inr ⟨j, Finset.ne_of_mem_erase hj, hc⟩

end Hands

end Convoy

/-! ### Whose containers are whose -/

namespace Convoy

variable {charge : ι → Charge}

/-- Different services, of one project or of several. -/
def Differ (charge : ι → Charge) : Prop :=
  ∀ i j, i ≠ j → (charge i).project.name ≠ (charge j).project.name ∨
    (charge i).service.name ≠ (charge j).service.name

theorem Differ.not_accepts (h : Differ charge) {i j : ι} (hne : i ≠ j) {labels : Labels}
    (haccepts : (charge i).pass.filter.accepts labels = true) :
    (charge j).pass.filter.accepts labels = false :=
  Labels.not_accepts_of_differ (h i j hne) haccepts

variable [Fintype ι]

/-- The containers that belong to none of the services. -/
def strangers (charge : ι → Charge) (cs : List Container) : List Container :=
  cs.filter fun c => decide (∀ i, (charge i).pass.filter.accepts c.labels = false)

theorem mem_strangers {c : Container} {cs : List Container} : c ∈ strangers charge cs ↔
    c ∈ cs ∧ ∀ i, (charge i).pass.filter.accepts c.labels = false := by
  rw [strangers, List.mem_filter, decide_eq_true_eq]

/-- Every container belongs to one of the services or to none. -/
theorem stock_split [DecidableEq ι] (h : Differ charge) (cs : List Container) :
    (cs : Multiset Container) = ↑(strangers charge cs) + ∑ i, ↑((charge i).pass.listed cs) := by
  induction cs with
  | nil =>
      simp only [strangers, Pass.listed, List.filter_nil, Multiset.coe_nil,
        Finset.sum_const_zero, add_zero]
  | cons c cs ih =>
      rw [← Multiset.cons_coe, ih]
      by_cases hnobody : ∀ i, (charge i).pass.filter.accepts c.labels = false
      · have hstrange : strangers charge (c :: cs) = c :: strangers charge cs :=
          List.filter_cons_of_pos (decide_eq_true hnobody)
        have hlisted : ∀ i, (charge i).pass.listed (c :: cs) = (charge i).pass.listed cs :=
          fun i => List.filter_cons_of_neg (by rw [hnobody i]; exact Bool.false_ne_true)
        simp only [hstrange, hlisted, ← Multiset.cons_coe, Multiset.cons_add]
      · have hstrange : strangers charge (c :: cs) = strangers charge cs :=
          List.filter_cons_of_neg (by rw [decide_eq_true_eq]; exact hnobody)
        have hsomebody : ∃ i, (charge i).pass.filter.accepts c.labels = true := by
          by_contra hnone
          exact hnobody fun i => Bool.eq_false_iff.mpr fun hi => hnone ⟨i, hi⟩
        rcases hsomebody with ⟨i, hi⟩
        -- The one to whom it belongs lists it, and nobody else does.
        have hlisted : ∀ j, ((charge j).pass.listed (c :: cs) : Multiset Container) =
            (if j = i then {c} else 0) + ↑((charge j).pass.listed cs) := by
          intro j
          by_cases hj : j = i
          · subst hj
            have hcons : (charge j).pass.listed (c :: cs) = c :: (charge j).pass.listed cs :=
              List.filter_cons_of_pos hi
            rw [hcons, if_pos rfl, Multiset.singleton_add, Multiset.cons_coe]
          · have hnot := h.not_accepts (Ne.symm hj) hi
            have hcons : (charge j).pass.listed (c :: cs) = (charge j).pass.listed cs :=
              List.filter_cons_of_neg (by rw [hnot]; exact Bool.false_ne_true)
            rw [hcons, if_neg hj, zero_add]
        rw [hstrange, Finset.sum_congr rfl fun j _ => hlisted j, Finset.sum_add_distrib,
          Finset.sum_ite_eq' Finset.univ i, if_pos (Finset.mem_univ i), add_left_comm,
          Multiset.singleton_add]

/-! ### Moves of all -/

section Moves

variable [DecidableEq ι] {H : Host ρ} {s : Store} {plan : ι → Plan} {convoy : Convoy ι ρ}

/-- Where all passes stand that began on the store given: what each of them has in hand makes up the
    store, with the containers of strangers, and each stands amid what the others have. -/
structure Marches (H : Host ρ) (s : Store) (charge : ι → Charge) (plan : ι → Plan)
    (convoy : Convoy ι ρ) : Prop where
  fields : ∀ i, (convoy.members i).pass =
    { (charge i).pass with stage := (convoy.members i).pass.stage }
  calm : H.calm convoy.world
  order : (H.store convoy.world).Descends (s.containers.map (·.id))
  hands : ∃ own : ι → Multiset Container,
    ((H.store convoy.world).containers : Multiset Container) =
      ↑(strangers charge s.containers) + ∑ i, own i ∧
    (∀ i, ∀ c ∈ own i, (charge i).pass.MayHold s c) ∧
    ∀ i, (charge i).pass.Amid H s (plan i).missing (around ↑(strangers charge s.containers) own i)
      (convoy.members i).pass.stage ((convoy.members i).site convoy.world)

/-- Nobody has a name that a pass takes but the containers of its service: neither a container of
    somebody else nor a pass over another service that takes the name as well. -/
structure Apart (charge : ι → Charge) (s : Store) : Prop where
  clear : ∀ i, ∀ c ∈ (charge i).pass.outside s.containers, c.name ∉ (charge i).pass.takes s
  disjoint : ∀ i j, i ≠ j → ∀ name ∈ (charge i).pass.takes s, name ∉ (charge j).pass.takes s

/-- A sum does not grow if one of its terms does not and the others stay the same. -/
theorem sum_le_of_one {f g : ι → Nat} {i : ι} (hi : f i ≤ g i) (hothers : ∀ j, j ≠ i → f j = g j) :
    ∑ j, f j ≤ ∑ j, g j := by
  refine Finset.sum_le_sum fun j _ => ?_
  by_cases hj : j = i
  · exact hj ▸ hi
  · exact Nat.le_of_eq (hothers j hj)

/-- A sum shrinks if one of its terms does and the others stay the same. -/
theorem sum_lt_of_one {f g : ι → Nat} {i : ι} (hi : f i < g i) (hothers : ∀ j, j ≠ i → f j = g j) :
    ∑ j, f j < ∑ j, g j := by
  refine Finset.sum_lt_sum (fun j _ => ?_) ⟨i, Finset.mem_univ i, hi⟩
  by_cases hj : j = i
  · exact hj ▸ Nat.le_of_lt hi
  · exact Nat.le_of_eq (hothers j hj)

/-- If a pass has less to do after its move, all of them together have. -/
theorem sum_recedes (opening : ι → Group Job) {E : Engine ρ} {i : ι} {move : Move}
    (h : Pass.Recedes E (opening i) (convoy.members i).pass.stage
      ((convoy.step E i move).members i).pass.stage ((convoy.members i).site convoy.world)
      (((convoy.step E i move).members i).site (convoy.step E i move).world)) :
    let left := fun c : Convoy ι ρ => ∑ j, Pass.requestsLeft E (opening j) (c.members j).pass.stage
    let lag := fun c : Convoy ι ρ =>
      ∑ j, Pass.turnsLeft E ((c.members j).site c.world) (c.members j).pass.stage
    left (convoy.step E i move) < left convoy ∨
      (left (convoy.step E i move) ≤ left convoy ∧ lag (convoy.step E i move) < lag convoy) := by
  have hothers : ∀ j, j ≠ i → (convoy.step E i move).members j = convoy.members j :=
    fun j hj => Function.update_of_ne hj _ _
  rcases h with hless | ⟨hle, hpauses, hless⟩
  · refine Or.inl (sum_lt_of_one hless fun j hj => ?_)
    rw [hothers j hj]
  · refine Or.inr ⟨sum_le_of_one hle fun j hj => ?_, sum_lt_of_one hless fun j hj => ?_⟩
    · rw [hothers j hj]
    · rw [hothers j hj]
      exact Pass.turnsLeft_congr hpauses _

section Step

variable (hdiffer : Differ charge) (hapart : Apart charge s)
  (hplan : ∀ i, (charge i).pass.planFor s.containers = .ok (plan i))
  (hfit : ∀ i, Fit ((charge i).pass.brief s) True ((charge i).pass.untouched s.containers)
    ((charge i).pass.duties (plan i).missing s.containers))
  (hnodup : (s.containers.map (·.id)).Nodup)

include hdiffer hapart

/-- What the others have in hand is none of a pass's concern. -/
theorem spares_around {own : ι → Multiset Container}
    (hown : ∀ i, ∀ c ∈ own i, (charge i).pass.MayHold s c) (i : ι) :
    (charge i).pass.Spares s (around ↑(strangers charge s.containers) own i) := by
  have houtside : ∀ c ∈ s.containers, (charge i).pass.filter.accepts c.labels = false →
      c.name ∉ (charge i).pass.takes s := fun c hc hnot =>
    hapart.clear i c (List.mem_filter.mpr ⟨hc, by rw [hnot]; rfl⟩)
  refine ⟨fun c hc => ?_, fun c hc => ?_⟩
  · rcases mem_around hc with hc | ⟨j, hj, hc⟩
    · exact (mem_strangers.mp (Multiset.mem_coe.mp hc)).2 i
    · exact hdiffer.not_accepts hj (hown j c hc).own
  · rcases mem_around hc with hc | ⟨j, hj, hc⟩
    · rcases mem_strangers.mp (Multiset.mem_coe.mp hc) with ⟨hmem, hnobody⟩
      exact houtside c hmem (hnobody i)
    · rcases (hown j c hc).named with htakes | ⟨d, hd, hname⟩
      · exact hapart.disjoint j i hj c.name htakes
      · rw [← hname]
        rcases Pass.mem_listed.mp hd with ⟨hmem, haccepts⟩
        exact houtside d hmem (hdiffer.not_accepts hj haccepts)

include hplan hfit hnodup

/-- A move of one pass keeps where all of them stand, and leaves this one less to do. -/
theorem Marches.step (h : Marches H s charge plan convoy) {i : ι} {move : Move}
    (hmove : (convoy.members i).pass.Enabled move) :
    let next := convoy.step H.engine i move
    Marches H s charge plan next ∧
      Pass.Recedes H.engine ((charge i).pass.opening s (plan i).missing)
        (convoy.members i).pass.stage (next.members i).pass.stage
        ((convoy.members i).site convoy.world) ((next.members i).site next.world) := by
  rcases h.hands with ⟨own, hstock, hown, hamid⟩
  have hspares := spares_around hdiffer hapart hown i
  have hcalls : H.calm (convoy.step H.engine i move).world ∧
      (H.store (convoy.step H.engine i move).world).Descends (s.containers.map (·.id)) := by
    refine Pass.step_kept (H.descends_keptByCalls _) move (fun hcancel => ?_) ⟨h.calm, h.order⟩
    rw [hcancel] at hmove
    exact absurd hmove (Pass.not_enabled_cancel _)
  have hself : (convoy.step H.engine i move).members i = ⟨_, _, _⟩ := Function.update_self ..
  have hothers : ∀ j, j ≠ i → (convoy.step H.engine i move).members j = convoy.members j :=
    fun j hj => Function.update_of_ne hj _ _
  have hfields := h.fields i
  have hstep : (convoy.members i).pass.step H.engine move
      ((convoy.members i).site convoy.world) = Pass.step H.engine move
        { (charge i).pass with stage := (convoy.members i).pass.stage }
        ((convoy.members i).site convoy.world) :=
    congrArg (fun pass => Pass.step H.engine move pass _) hfields
  rw [hfields] at hmove
  rcases Pass.amid_step (hplan i) (hfit i) hnodup hspares h.order hmove (hamid i) with
    ⟨hamid', hrecedes⟩
  rw [← hstep] at hamid' hrecedes
  rcases hamid'.exists_hand (hplan i) with ⟨hand, hstock', hhand⟩
  -- What the pass has in hand now takes the place of what it had.
  have hstock'' : ((H.store (convoy.step H.engine i move).world).containers :
      Multiset Container) = ↑(strangers charge s.containers) +
        ∑ j, Function.update own i hand j := by
    rw [← around_add _ _ i, around_update, Function.update_self]
    exact hstock'
  refine ⟨⟨fun j => ?_, hcalls.1, hcalls.2, Function.update own i hand, hstock'', fun j => ?_,
    fun j => ?_⟩, ?_⟩
  · by_cases hj : j = i
    · subst hj
      rw [hself]
      simp only
      rw [hstep]
      exact Pass.step_fields _ _ _ _
    · rw [hothers j hj]
      exact h.fields j
  · by_cases hj : j = i
    · subst hj
      rw [Function.update_self]
      exact hhand
    · rw [Function.update_of_ne hj]
      exact hown j
  · by_cases hj : j = i
    · subst hj
      rw [around_update, hself]
      exact hamid'
    · rw [hothers j hj]
      refine (hamid j).among (hstock.trans (around_add _ _ j).symm) ?_
        (Pass.sound_of_sound hamid'.sound)
      rw [← Function.update_of_ne hj hand own, around_add]
      exact hstock''
  · rw [hself]
    exact hrecedes

/-- Passes that have nothing in each other's way are bound to come to their ends, where it is known
    where each of them stands. -/
theorem Marches.inevitable {Q : Convoy ι ρ → Prop}
    (hQ : ∀ convoy, Marches H s charge plan convoy →
      (∀ i, (convoy.members i).pass.result? ≠ none) → Q convoy)
    (h : Marches H s charge plan convoy) : Inevitable H.engine Q convoy := by
  let E := H.engine
  let opening := fun i => (charge i).pass.opening s (plan i).missing
  refine descend
    (fun c : Convoy ι ρ => ∑ j, Pass.requestsLeft E (opening j) (c.members j).pass.stage)
    (fun c => ∑ j, Pass.turnsLeft E ((c.members j).site c.world) (c.members j).pass.stage)
    (P := fun c => Marches H s charge plan c → Inevitable E Q c) ?_ convoy h
  intro convoy ih h
  by_cases hended : ∀ i, (convoy.members i).pass.result? ≠ none
  · exact .ended hended (hQ convoy h hended)
  · refine .later ?_ fun i move hmove => ?_
    · rcases not_forall.mp hended with ⟨i, hi⟩
      rcases h.hands with ⟨own, _, _, hamid⟩
      have hgoing := not_not.mp hi
      rw [h.fields i] at hgoing
      rcases (hamid i).exists_enabled hgoing with ⟨move, hmove⟩
      rw [← h.fields i] at hmove
      exact ⟨i, move, hmove⟩
    · rcases h.step hdiffer hapart hplan hfit hnodup hmove with ⟨hnext, hrecedes⟩
      exact ih _ (sum_recedes opening hrecedes) hnext

end Step

end Moves

/-! ### From beginning to end -/

section Ends

variable [DecidableEq ι] {H : Host ρ} {plan : ι → Plan} {w : ρ}

/-- Passes at their beginnings stand amid the containers of the others. -/
theorem marches_start (channel : ι → Channel) (hpeaceful : H.peaceful w)
    (hpending : (H.store w).pending = fun _ => none) (hdistinct : (H.store w).Distinct)
    (hdiffer : Differ charge) (hfeasible : ∀ i, (charge i).Feasible (H.store w)) :
    Marches H (H.store w) charge plan (start charge channel w) := by
  have hcalm := H.calm_of_peaceful w hpeaceful
  refine ⟨fun i => rfl, hcalm, hdistinct.descends,
    fun i => ↑((charge i).pass.listed (H.store w).containers), stock_split hdiffer _,
    fun i c hc => Pass.mayHold_of_listed (Multiset.mem_coe.mp hc), fun i => ?_⟩
  have hstage : (charge i).pass.stage = Pass.listFirst := by
    rw [Charge.pass, Pass.start, (hfeasible i).ungated]
    rfl
  have hintact : Intact H.forgetful ((charge i).pass.brief (H.store w)) True
      (H.store w).containers w :=
    Pass.intact_of_distinct hcalm hdistinct (fun t ht => absurd ht List.not_mem_nil)
      fun _ => ⟨hpeaceful, hpending⟩
  have hstock : ((H.store w).containers : Multiset Container) =
      around ↑(strangers charge (H.store w).containers)
        (fun j => ↑((charge j).pass.listed (H.store w).containers)) i +
      ↑((charge i).pass.listed (H.store w).containers) :=
    (stock_split hdiffer _).trans (around_add _ _ i).symm
  change (charge i).pass.Amid H (H.store w) (plan i).missing _ (charge i).pass.stage _
  rw [hstage]
  exact ⟨hintact.sound, hstock, trivial⟩

/-- A pass that is alone comes to its share. -/
theorem asAlone_of_perm {charge : Charge} {plan : Plan} {site : Site ρ}
    (hpeaceful : H.peaceful site.world) (hpending : (H.store site.world).pending = fun _ => none)
    (hdistinct : (H.store site.world).Distinct) (hfeasible : charge.Feasible (H.store site.world))
    (hplan : charge.pass.planFor (H.store site.world).containers = .ok plan)
    (hfit : Fit (charge.pass.brief (H.store site.world)) True
      (charge.pass.untouched (H.store site.world).containers)
      (charge.pass.duties plan.missing (H.store site.world).containers)) {t : Store}
    (hperm : ((ofService charge.project charge.service t.containers).map
      (·.veiled ((H.store site.world).containers.map (·.id)))).Perm
      (charge.pass.share plan.missing (H.store site.world))) :
    charge.AsAlone H site t := by
  have hintact : Intact H.forgetful (charge.pass.brief (H.store site.world)) True
      (H.store site.world).containers site.world :=
    Pass.intact_of_distinct (H.calm_of_peaceful _ hpeaceful) hdistinct
      (fun t ht => absurd ht List.not_mem_nil) fun _ => ⟨hpeaceful, hpending⟩
  have hopens : ∀ dependency ∈ charge.service.healthDependencies,
      Opens charge.project.name dependency (H.store site.world).containers := by
    rw [hfeasible.ungated]
    exact fun _ hdependency => absurd hdependency List.not_mem_nil
  refine (Pass.inevitable_start charge.project charge.service charge.grace charge.marks hplan hfit
    hopens hintact).imp ?_
  rintro result after ⟨hok, hledger⟩
  rw [Pass.untouched, ← Multiset.coe_add] at hledger
  exact ⟨hok, hperm.trans (Pass.share_of_ledger hplan hfeasible.regular
    (fun c hc => Pass.accepts_of_mem_outside (Multiset.mem_coe.mp hc)) hledger).symm⟩

/-- Passes over different services on one store, none of which has a name taken that another one
    takes or that a container of somebody else has, do not disturb each other, in whatever order
    they make their moves. -/
theorem undisturbed_of_apart (H : Host ρ) (charge : ι → Charge) (channel : ι → Channel) (w : ρ)
    (hpeaceful : H.peaceful w) (hpending : (H.store w).pending = fun _ => none)
    (hdistinct : (H.store w).Distinct) (hdiffer : Differ charge)
    (hfeasible : ∀ i, (charge i).Feasible (H.store w)) (hapart : Apart charge (H.store w)) :
    Undisturbed H charge channel w := by
  have hplans : ∀ i, ∃ plan, (charge i).pass.planFor (H.store w).containers = .ok plan :=
    fun i => Pass.planFor_complete (hfeasible i).regular (hfeasible i).room
  choose plan hplan using hplans
  have hfit : ∀ i, Fit ((charge i).pass.brief (H.store w)) True
      ((charge i).pass.untouched (H.store w).containers)
      ((charge i).pass.duties (plan i).missing (H.store w).containers) := fun i =>
    Pass.fit_of_not_clash (hplan i) hdistinct.ids_nodup (hfeasible i).regular
      (Pass.not_clash_of_nodup (hfeasible i).numbers) fun c hc duty hduty hwanted =>
        hapart.clear i c hc ((Pass.mem_takes (hplan i)).mpr ⟨duty, hduty, hwanted⟩)
  refine (marches_start channel hpeaceful hpending hdistinct hdiffer hfeasible).inevitable
    hdiffer hapart hplan hfit hdistinct.nodup fun convoy h hended i => ?_
  rcases h.hands with ⟨own, _, hown, hamid⟩
  have hspares := spares_around hdiffer hapart hown i
  have hfields := h.fields i
  have hresult := hended i
  rw [hfields] at hresult
  rcases (hamid i).ended hresult with ⟨hok, hledger⟩
  rw [← hfields] at hok
  exact ⟨hok, asAlone_of_perm hpeaceful hpending hdistinct (hfeasible i) (hplan i) (hfit i)
    (Pass.share_of_ledger (hplan i) (hfeasible i).regular hspares.apart hledger)⟩

/-- A service whose container is replaced, and another one that has none yet. -/
def pair (web : Bool) : Charge :=
  ⟨Sample.project, if web then Sample.service else .plain "db" "db:1", none, .none⟩

theorem pair_takes (web : Bool) : (pair web).pass.takes Sample.drill.store =
    if web then ["0123456789ab_demo_web_1", "demo_web_1"] else ["demo_db_1"] := by
  cases web <;> rfl

theorem pair_differ : Differ pair := by
  unfold Differ
  decide

theorem pair_feasible (web : Bool) : (pair web).Feasible Sample.drill.store := by
  cases web with
  | false =>
      have hlisted : (pair false).pass.listed Sample.drill.store.containers = [] := rfl
      refine ⟨rfl, ?_, ?_, ?_⟩
      · rw [hlisted]
        exact fun c hc => absurd hc List.not_mem_nil
      · rw [hlisted]
        exact List.nodup_nil
      · rw [hlisted]
        exact fun _ c hc => absurd hc List.not_mem_nil
  | true =>
      have hlisted : (pair true).pass.listed Sample.drill.store.containers =
          [Sample.container] := rfl
      refine ⟨rfl, ?_, ?_, fun hfew => absurd hfew (Nat.lt_irrefl 1)⟩
      · rw [hlisted]
        intro c hc
        rw [List.mem_singleton.mp hc]
        exact ⟨rfl, Or.inl rfl⟩
      · rw [hlisted]
        exact List.nodup_singleton _

theorem pair_apart : Apart pair Sample.drill.store := by
  refine ⟨fun web c hc => ?_, fun i j hne => ?_⟩
  · cases web with
    | true => exact absurd hc List.not_mem_nil
    | false =>
        have hsame : c = Sample.container := List.mem_singleton.mp hc
        rw [hsame, pair_takes]
        decide
  · rw [pair_takes, pair_takes]
    revert i j
    decide

/-- Passes over two services of one project, side by side. -/
theorem undisturbed_sample :
    (Drill.host.peaceful Sample.drill ∧ (Sample.drill.store.pending = fun _ => none) ∧
      Sample.drill.store.Distinct ∧ Differ pair ∧ (∀ web, (pair web).Feasible Sample.drill.store) ∧
      Apart pair Sample.drill.store) ∧
    Undisturbed Drill.host pair (fun _ => .fresh) Sample.drill :=
  have hdistinct : Sample.drill.store.Distinct := (Sample.tidy rfl rfl).toDistinct
  ⟨⟨⟨rfl, rfl⟩, rfl, hdistinct, pair_differ, pair_feasible, pair_apart⟩,
    undisturbed_of_apart Drill.host pair (fun _ => .fresh) Sample.drill ⟨rfl, rfl⟩ rfl
      hdistinct pair_differ pair_feasible pair_apart⟩

/-- Two services of different names in projects of different names, for which containers are named
    alike. -/
def namesakes (first : Bool) : Charge :=
  if first then ⟨⟨"a", []⟩, .plain "b_c" "app:1", none, .none⟩
  else ⟨⟨"a_b", []⟩, .plain "c" "app:1", none, .none⟩

/-- A drill on a store without containers. -/
def blank : Drill := ⟨Store.empty, false, 0, []⟩

theorem namesakes_feasible (first : Bool) : (namesakes first).Feasible blank.store := by
  have hlisted : (namesakes first).pass.listed blank.store.containers = [] := List.filter_nil
  refine ⟨?_, ?_, ?_, ?_⟩
  · cases first <;> rfl
  · rw [hlisted]
    exact fun c hc => absurd hc List.not_mem_nil
  · rw [hlisted]
    exact List.nodup_nil
  · rw [hlisted]
    exact fun _ c hc => absurd hc List.not_mem_nil

/-- The first of two passes succeeds, and the second one finds the name of its container in use. -/
theorem not_undisturbed_sample :
    (Drill.host.peaceful blank ∧ (blank.store.pending = fun _ => none) ∧ blank.store.Distinct ∧
      Differ namesakes ∧ ∀ first, (namesakes first).Feasible blank.store) ∧
    ¬Undisturbed Drill.host namesakes (fun _ => .fresh) blank := by
  have hdiffer : Differ namesakes := by
    unfold Differ
    decide
  refine ⟨⟨⟨rfl, rfl⟩, rfl, ?_, hdiffer, namesakes_feasible⟩, fun h => ?_⟩
  · exact ⟨List.nodup_nil, fun _ _ c hc => absurd hc List.not_mem_nil, freshId_injective⟩
  · have hfirst := (h.step true (.poll 0) rfl).step true (.poll 0) Nat.one_pos
    have hsecond := (hfirst.step false (.poll 0) rfl).step false (.poll 0) Nat.one_pos
    have hended := hsecond.of_ended fun i => by cases i <;> exact nofun
    cases (hended false).1

end Ends

end Convoy

end Fleet
