import Fleet.Pass
import Fleet.Proofs.Group
import Fleet.Proofs.Stand

/-!
# What is bound to happen

A pass offers many moves at a time, and a statement about every order of them should
also say that they come to an end. `Pass.Inevitable` says both: whichever enabled
moves are made, the pass ends, and a fact holds when it does. The end of the work is
not an enabled move; it is never bound to happen.

That moves come to an end is shown by counting. A task has requests left to make, and
while it makes none it can only give up turns, of which it has a number until its next
request (`lag`). A turn makes a request or uses up a turn. Since how many turns a task
gives up hangs on the state of the runtime, and this changes with every request, the
two counts are compared in this order.

Gates and operations come to their end by the same induction (`Group.move_induction`): an
invariant of the group is kept, and under it every enabled move leaves less to do.

## Main definitions

* `Pass.Enabled`: The moves that can happen while nobody ends the work.
* `Pass.Inevitable`: Every order of moves comes to an end at which a fact holds.
* `Gauge`: What the tasks of a group have left to do.
* `Job.gauge`: What operations have left to do.

## Theorems

* `Pass.Inevitable.not_of_strategy`: Nothing is bound to happen that there is a strategy against.
* `Group.step_recedes`: Every enabled move of a group leaves less to do if every turn does, and
  leaves the turns of others as they are unless it makes a request.
* `Group.move_induction`: Induction over the moves that a group has left.
* `Pass.inevitable_afterJobs`: Operations that have ever less to do come to their end.
* `Job.resume_descends`: Every turn of an operation leaves less to do.
-/

namespace Fleet

variable {ρ : Type}

namespace Group

variable {σ W : Type}

/-- A move that can happen to a group while nobody ends the work. -/
def Enabled (g : Group σ) : Move → Prop
  | .poll place => place < g.ready.length
  | .fire => g.asleep ≠ []
  | .cancel => False

theorem exists_enabled {g : Group σ} (h : g.isOver = false) : ∃ move, g.Enabled move := by
  cases hready : g.ready with
  | cons slot rest =>
      refine ⟨.poll 0, ?_⟩
      rw [Enabled, hready, List.length_cons]
      omega
  | nil =>
      refine ⟨.fire, ?_⟩
      intro hasleep
      rw [isOver, hready, hasleep] at h
      cases h

end Group

namespace Pass

/-- A move that can happen to a pass while nobody ends the work. -/
def Enabled (pass : Pass) (move : Move) : Prop :=
  match pass.stage with
  | .gating gates => gates.Enabled move
  | .listing _ waiting _ =>
    match move with
    | .poll _ => waiting = false
    | .fire => waiting = true
    | .cancel => False
  | .working jobs => jobs.Enabled move
  | .ended _ => False

/-- The end of the work is never bound to happen. -/
theorem not_enabled_cancel (pass : Pass) : ¬pass.Enabled .cancel := by
  unfold Enabled
  cases pass.stage <;> exact id

/-- Whichever enabled moves are made, a pass comes to its end, and a fact holds then. -/
inductive Inevitable (E : Engine ρ) (P : Except Error Unit → Site ρ → Prop) : Pass → Site ρ → Prop
  -- The pass is at its end.
  | ended {pass : Pass} {site : Site ρ} (result : Except Error Unit) :
    pass.result? = some result → P result site → Inevitable E P pass site
  -- The pass goes on, and every way it can go is bound to end.
  | later {pass : Pass} {site : Site ρ} : (∃ move, pass.Enabled move) →
    (∀ move, pass.Enabled move →
      Inevitable E P (pass.step E move site).1 (pass.step E move site).2) →
    Inevitable E P pass site

theorem not_enabled_of_result {pass : Pass} {result : Except Error Unit}
    (h : pass.result? = some result) (move : Move) : ¬pass.Enabled move := by
  unfold result? at h
  unfold Enabled
  cases hstage : pass.stage with
  | ended _ => exact id
  | _ =>
      rw [hstage] at h
      cases h

theorem Inevitable.imp {E : Engine ρ} {P Q : Except Error Unit → Site ρ → Prop} {pass : Pass}
    {site : Site ρ} (h : Inevitable E P pass site) (hPQ : ∀ result site, P result site →
      Q result site) : Inevitable E Q pass site := by
  induction h with
  | ended result hresult hP => exact .ended result hresult (hPQ _ _ hP)
  | later hmove _ ih => exact .later hmove ih

/-- Nothing is bound to happen if there is a strategy against it: a property of the moments of a
    pass that some enabled move always keeps, and with which it does not hold at the end. -/
theorem Inevitable.not_of_strategy {E : Engine ρ} {P : Except Error Unit → Site ρ → Prop}
    {J : Pass → Site ρ → Prop}
    (hgo : ∀ pass site, J pass site → pass.result? = none →
      ∃ move, pass.Enabled move ∧ J (pass.step E move site).1 (pass.step E move site).2)
    (hend : ∀ pass site result, J pass site → pass.result? = some result → ¬P result site)
    {pass : Pass} {site : Site ρ} (h : J pass site) : ¬Inevitable E P pass site := by
  intro hbound
  induction hbound with
  | ended result hresult hP => exact hend _ _ _ h hresult hP
  | @later pass site hmove _ ih =>
      cases hresult : pass.result? with
      | some result =>
          rcases hmove with ⟨move, henabled⟩
          exact not_enabled_of_result hresult move henabled
      | none =>
          rcases hgo _ _ h hresult with ⟨move, henabled, hnext⟩
          exact ih move henabled hnext

end Pass

/-! ### Counting -/

/-- What is left at the end of a turn, for a task that can go on and for one that sleeps. -/
def Turn.weigh {σ α : Type} (going sleeping : σ → Nat) : Turn σ α → Nat
  | .yielded task => going task
  | .asleep task => sleeping task
  | .finished _ => 0

/-- What follows from itself with less to do, compared first by one count and then by another,
    holds. -/
theorem descend {S : Type} (left lag : S → Nat) {P : S → Prop}
    (h : ∀ s, (∀ s', left s' < left s ∨ (left s' ≤ left s ∧ lag s' < lag s) → P s') → P s) :
    ∀ s, P s := by
  have hboth : ∀ n m s, left s ≤ n → lag s ≤ m → P s := by
    intro n
    induction n using Nat.strong_induction_on with
    | _ n ihn =>
        intro m
        induction m using Nat.strong_induction_on with
        | _ m ihm =>
            intro s hn hm
            refine h s fun s' hs' => ?_
            rcases hs' with hless | ⟨hle, hless⟩
            · exact ihn (left s') (by omega) (lag s') s' (Nat.le_refl _) (Nat.le_refl _)
            · exact ihm (lag s') (by omega) s' (by omega) (Nat.le_refl _)
  exact fun s => hboth (left s) (lag s) s (Nat.le_refl _) (Nat.le_refl _)

/-- What the tasks of a group have left to do. -/
structure Gauge (σ W : Type) where
  -- The requests a task still makes.
  left : σ → Nat
  -- The turns a task that can go on has until its next request.
  lag : W → σ → Nat

namespace Gauge

variable {σ W : Type} (G : Gauge σ W) (C : Conduct σ W)

/-- The requests left at the end of a turn. -/
def turnLeft (turn : Turn σ (Except Error Unit)) : Nat := turn.weigh G.left G.left

/-- The turns until the next request at the end of a turn; one that sleeps is to be woken first. -/
def turnLag (w : W) (turn : Turn σ (Except Error Unit)) : Nat :=
  turn.weigh (G.lag w) fun task => G.lag w (C.wake task) + 1

/-- A turn makes requests, or uses up a turn and leaves the world such that nobody has more to
    do. -/
def Descends (task : σ) (w : W) (turn : Turn σ (Except Error Unit)) (after : W) : Prop :=
  G.turnLeft turn < G.left task ∨
    (G.turnLeft turn ≤ G.left task ∧ G.lag after = G.lag w ∧ G.turnLag C w turn < G.lag w task)

/-- The requests the tasks of a group still make. -/
def groupLeft (g : Group σ) : Nat :=
  (g.ready.map fun slot => G.left slot.task).sum + (g.asleep.map fun slot => G.left slot.task).sum

/-- The turns the tasks of a group have until their next requests. -/
def groupLag (w : W) (g : Group σ) : Nat :=
  (g.ready.map fun slot => G.lag w slot.task).sum +
    (g.asleep.map fun slot => G.lag w (C.wake slot.task) + 1).sum

end Gauge

theorem sum_map_eraseIdx {α : Type} {l : List α} {i : Nat} {a : α} (h : l[i]? = some a)
    (f : α → Nat) : (l.map f).sum = f a + ((l.eraseIdx i).map f).sum := by
  have hsum := congrArg (fun m : Multiset α => (m.map f).sum) (Group.coe_eraseIdx h)
  simp only [Multiset.map_cons, Multiset.sum_cons, Multiset.map_coe, Multiset.sum_coe] at hsum
  exact hsum

theorem sum_map_succ {α : Type} (l : List α) (f : α → Nat) :
    (l.map fun a => f a + 1).sum = (l.map f).sum + l.length := by
  induction l with
  | nil => rfl
  | cons a l ih =>
      rw [List.map_cons, List.map_cons, List.sum_cons, List.sum_cons, ih, List.length_cons]
      omega

namespace Group

variable {σ W : Type} (G : Gauge σ W) (C : Conduct σ W)

theorem groupLeft_settle (g : Group σ) (turn : Turn σ (Except Error Unit)) :
    G.groupLeft (g.settle turn) = G.groupLeft g + G.turnLeft turn := by
  cases turn with
  | yielded task =>
      simp only [Gauge.groupLeft, settle, Gauge.turnLeft, Turn.weigh, List.map_append,
        List.sum_append, List.map_cons, List.map_nil, List.sum_cons, List.sum_nil]
      omega
  | asleep task =>
      simp only [Gauge.groupLeft, settle, Gauge.turnLeft, Turn.weigh, List.map_append,
        List.sum_append, List.map_cons, List.map_nil, List.sum_cons, List.sum_nil]
      omega
  | finished result => cases result <;> rfl

theorem groupLag_settle (w : W) (g : Group σ) (turn : Turn σ (Except Error Unit)) :
    G.groupLag C w (g.settle turn) = G.groupLag C w g + G.turnLag C w turn := by
  cases turn with
  | yielded task =>
      simp only [Gauge.groupLag, settle, Gauge.turnLag, Turn.weigh, List.map_append,
        List.sum_append, List.map_cons, List.map_nil, List.sum_cons, List.sum_nil]
      omega
  | asleep task =>
      simp only [Gauge.groupLag, settle, Gauge.turnLag, Turn.weigh, List.map_append,
        List.sum_append, List.map_cons, List.map_nil, List.sum_cons, List.sum_nil]
      omega
  | finished result => cases result <;> rfl

/-- A poll makes requests, or uses up a turn and leaves all others theirs. -/
theorem poll_recedes {g : Group σ} {w : W} {place : Nat} {slot : Slot σ}
    (hslot : g.ready[place]? = some slot)
    (hturn : ∀ turn scope,
      guarded C.stopped C.resume slot.started slot.task ⟨g.tripped, w⟩ = (turn, scope) →
      G.Descends C slot.task w turn scope.world ∧
        C.stopped ⟨scope.tripped || turn.failure?.isSome, scope.world⟩ = false) :
    let next := g.poll C place w
    G.groupLeft next.1 < G.groupLeft g ∨
      (G.groupLeft next.1 ≤ G.groupLeft g ∧ G.lag next.2 = G.lag w ∧
        G.groupLag C next.2 next.1 < G.groupLag C w g) := by
  simp only [poll, hslot]
  rcases hresult : guarded C.stopped C.resume slot.started slot.task ⟨g.tripped, w⟩ with
    ⟨turn, scope⟩
  rcases hturn turn scope hresult with ⟨hdescends, hgoing⟩
  have hheed : ∀ g' : Group σ, g'.tripped = scope.tripped →
      (g'.settle turn).heed C scope.world = g'.settle turn := by
    intro g' htripped
    rw [heed, settle_tripped, htripped, hgoing]
    rfl
  rw [hheed _ rfl]
  simp only [groupLeft_settle, groupLag_settle]
  have hleft : G.groupLeft g = G.left slot.task +
      G.groupLeft { g with ready := g.ready.eraseIdx place, tripped := scope.tripped } := by
    simp only [Gauge.groupLeft]
    rw [sum_map_eraseIdx hslot fun slot => G.left slot.task, Nat.add_assoc]
  have hlag : G.groupLag C w g = G.lag w slot.task +
      G.groupLag C w { g with ready := g.ready.eraseIdx place, tripped := scope.tripped } := by
    simp only [Gauge.groupLag]
    rw [sum_map_eraseIdx hslot fun slot => G.lag w slot.task, Nat.add_assoc]
  rcases hdescends with hless | ⟨hle, hsame, hless⟩
  · left
    omega
  · right
    -- Nobody's turns have changed, so the sums over the others are the same.
    have hothers : ∀ g' : Group σ, G.groupLag C scope.world g' = G.groupLag C w g' := by
      intro g'
      simp only [Gauge.groupLag, hsame]
    have hturn : G.turnLag C scope.world turn = G.turnLag C w turn := by
      cases turn <;> simp only [Gauge.turnLag, hsame]
    rw [hothers, hturn]
    exact ⟨by omega, hsame, by omega⟩

/-- Arrivals use up the turn in which a task sleeps. -/
theorem fire_descends {g : Group σ} (w : W) (hwake : ∀ task, G.left (C.wake task) = G.left task)
    (hasleep : g.asleep ≠ []) :
    G.groupLeft (g.rouse C.wake) = G.groupLeft g ∧
      G.groupLag C w (g.rouse C.wake) < G.groupLag C w g := by
  have hlength := List.length_pos_of_ne_nil hasleep
  have hleft : (g.asleep.map fun slot => G.left (C.wake slot.task)) =
      g.asleep.map fun slot => G.left slot.task :=
    List.map_congr_left fun slot _ => hwake slot.task
  have hlag := sum_map_succ g.asleep fun slot => G.lag w (C.wake slot.task)
  simp only [Gauge.groupLeft, Gauge.groupLag, rouse, List.map_append, List.sum_append,
    List.map_map, List.map_nil, List.sum_nil, Function.comp_def, hleft, hlag]
  omega

end Group

/-! ### Groups that come to an end -/

namespace Group

variable {σ W : Type} {C : Conduct σ W}

/-- Every enabled move leaves less to do if every turn does and stops nobody; one that makes no
    request leaves everybody else as many turns as before. -/
theorem step_recedes (G : Gauge σ W) {g : Group σ} {w : W}
    (hwake : ∀ task, G.left (C.wake task) = G.left task)
    (hturn : ∀ slot rest, g.slots = slot ::ₘ rest → ∀ turn scope,
      guarded C.stopped C.resume slot.started slot.task ⟨g.tripped, w⟩ = (turn, scope) →
      G.Descends C slot.task w turn scope.world ∧
        C.stopped ⟨scope.tripped || turn.failure?.isSome, scope.world⟩ = false)
    {move : Move} (hmove : g.Enabled move) :
    let next := g.step C move w
    G.groupLeft next.1 < G.groupLeft g ∨
      (G.groupLeft next.1 ≤ G.groupLeft g ∧ G.lag next.2 = G.lag w ∧
        G.groupLag C next.2 next.1 < G.groupLag C w g) := by
  cases move with
  | cancel => exact hmove.elim
  | fire =>
      rcases fire_descends G C w hwake hmove with ⟨hsame, hless⟩
      exact Or.inr ⟨Nat.le_of_eq hsame, rfl, hless⟩
  | poll place =>
      have hslot : g.ready[place]? = some g.ready[place] := List.getElem?_eq_getElem hmove
      rcases poll_of_getElem? hslot C w with ⟨rest, hslots, _⟩
      exact poll_recedes G C hslot (hturn _ rest hslots)

/-- Every enabled move leaves less to do if every turn does and stops nobody. -/
theorem step_descends (G : Gauge σ W) {g : Group σ} {w : W}
    (hwake : ∀ task, G.left (C.wake task) = G.left task)
    (hturn : ∀ slot rest, g.slots = slot ::ₘ rest → ∀ turn scope,
      guarded C.stopped C.resume slot.started slot.task ⟨g.tripped, w⟩ = (turn, scope) →
      G.Descends C slot.task w turn scope.world ∧
        C.stopped ⟨scope.tripped || turn.failure?.isSome, scope.world⟩ = false)
    {move : Move} (hmove : g.Enabled move) :
    let next := g.step C move w
    G.groupLeft next.1 < G.groupLeft g ∨
      (G.groupLeft next.1 ≤ G.groupLeft g ∧
        G.groupLag C next.2 next.1 < G.groupLag C w g) :=
  (step_recedes G hwake hturn hmove).imp_right fun h => ⟨h.1, h.2.2⟩

/-- What holds of a group if it holds after every enabled move, holds, as long as the moves keep an
    invariant under which each of them leaves less to do. -/
theorem move_induction {Inv : Multiset (Slot σ) → Option Error → Scope W → Prop}
    (hturn : KeptByTurns C Inv) (hwake : KeptByWaking C Inv) (left lag : Group σ → W → Nat)
    (hless : ∀ g w move, Inv g.slots g.failure ⟨g.tripped, w⟩ → g.Enabled move →
      let next := g.step C move w
      left next.1 next.2 < left g w ∨
        (left next.1 next.2 ≤ left g w ∧ lag next.1 next.2 < lag g w))
    {P : Group σ → W → Prop}
    (h : ∀ g w, Inv g.slots g.failure ⟨g.tripped, w⟩ →
      (∀ move, g.Enabled move → P (g.step C move w).1 (g.step C move w).2) → P g w)
    {g : Group σ} {w : W} (hinv : Inv g.slots g.failure ⟨g.tripped, w⟩) : P g w := by
  have hall := descend (fun s : Group σ × W => left s.1 s.2) (fun s => lag s.1 s.2)
    (P := fun s => Inv s.1.slots s.1.failure ⟨s.1.tripped, s.2⟩ → P s.1 s.2) ?_
  · exact hall (g, w) hinv
  rintro ⟨g, w⟩ ih hinv
  refine h g w hinv fun move hmove => ?_
  have hkept := step_invariant hturn hwake move
    (fun hcancel => by rw [hcancel] at hmove; exact hmove.elim) hinv
  exact ih (g.step C move w) (hless g w move hinv hmove) hkept

end Group

namespace Pass

variable {E : Engine ρ} {P : Except Error Unit → Site ρ → Prop}

theorem afterGates_of_going {gates : Group Gate.Watch} (h : gates.isOver = false) :
    afterGates gates = .gating gates := by
  rw [afterGates, h]
  rfl

theorem afterGates_of_passed {gates : Group Gate.Watch} (h : gates.isOver = true)
    (hfailure : gates.failure = none) : afterGates gates = listFirst := by
  rw [afterGates, h, Group.outcome, hfailure]
  rfl

theorem afterGates_of_failed {gates : Group Gate.Watch} {error : Error}
    (h : gates.isOver = true) (hfailure : gates.failure = some error) :
    afterGates gates = .ended (.error error) := by
  rw [afterGates, h, Group.outcome, hfailure]
  rfl

theorem afterJobs_of_going {jobs : Group Job} (h : jobs.isOver = false) :
    afterJobs jobs = .working jobs := by
  rw [afterJobs, h]
  rfl

theorem afterJobs_of_over {jobs : Group Job} (h : jobs.isOver = true) :
    afterJobs jobs = .ended jobs.outcome := by
  rw [afterJobs, h]
  rfl

/-- Operations come to their end, as long as their moves keep an invariant under which each of them
    leaves less to do. -/
theorem inevitable_afterJobs (pass : Pass)
    {Inv : Multiset (Slot Job) → Option Error → Scope (Site ρ) → Prop}
    (hturn : Group.KeptByTurns (Job.conduct E) Inv)
    (hwake : Group.KeptByWaking (Job.conduct E) Inv) (left lag : Group Job → Site ρ → Nat)
    (hless : ∀ jobs site move, Inv jobs.slots jobs.failure ⟨jobs.tripped, site⟩ →
      jobs.Enabled move →
      let next := jobs.step (Job.conduct E) move site
      left next.1 next.2 < left jobs site ∨
        (left next.1 next.2 ≤ left jobs site ∧ lag next.1 next.2 < lag jobs site))
    (hend : ∀ (jobs : Group Job) site, Inv jobs.slots jobs.failure ⟨jobs.tripped, site⟩ →
      jobs.slots = 0 → P jobs.outcome site)
    {jobs : Group Job} {site : Site ρ}
    (h : Inv jobs.slots jobs.failure ⟨jobs.tripped, site⟩) :
    Inevitable E P { pass with stage := afterJobs jobs } site := by
  refine Group.move_induction hturn hwake left lag hless
    (P := fun jobs site => Inevitable E P { pass with stage := afterJobs jobs } site) ?_ h
  intro jobs site hinv ih
  cases hover : jobs.isOver with
  | true =>
      rw [afterJobs_of_over hover]
      exact .ended jobs.outcome rfl (hend jobs site hinv ((Group.slots_eq_zero_iff jobs).mpr hover))
  | false =>
      rw [afterJobs_of_going hover]
      exact .later (Group.exists_enabled hover) ih

end Pass

/-! ### Operations -/

namespace Errand

variable {α : Type}

/-- The requests that an errand still makes. -/
def owes : Errand α → Nat
  | awaiting .. => 0
  | _ => 1

/-- The turns an errand has, where `pauses` are given up before each request. -/
def lag (pauses : Nat) : Errand α → Nat
  | due => pauses + 1
  | pausing turns => turns + 1
  | awaiting _ true => pauses + 1
  | awaiting _ false => pauses + 3

/-- A turn of an errand has the request carried out, or uses up a turn, or brings the answer that
    has arrived. -/
theorem resume_cases (E : Engine ρ) (q : Request) (errand : Errand q.Answer) (w : ρ) :
    (errand.owes = 1 ∧ resume E q errand w = issue E q w) ∨
    (∃ turns, errand.owes = 1 ∧ turns + 1 < errand.lag (E.pauses w) ∧
      resume E q errand w = (.yielded (pausing turns), w)) ∨
    (∃ answer, errand = awaiting answer true ∧ resume E q errand w = (.finished answer, w)) ∨
    ∃ answer, errand = awaiting answer false ∧
      resume E q errand w = (.asleep (awaiting answer false), w) := by
  cases errand with
  | due =>
      cases hpauses : E.pauses w with
      | zero =>
          refine Or.inl ⟨rfl, ?_⟩
          rw [resume, hpauses, pauseOrIssue]
      | succ turns =>
          refine Or.inr (Or.inl ⟨turns, rfl, Nat.lt_succ_self _, ?_⟩)
          rw [resume, hpauses, pauseOrIssue]
  | pausing turns =>
      cases turns with
      | zero => exact Or.inl ⟨rfl, rfl⟩
      | succ turns => exact Or.inr (Or.inl ⟨turns, rfl, Nat.lt_succ_self _, rfl⟩)
  | awaiting answer arrived =>
      cases arrived with
      | true => exact Or.inr (Or.inr (Or.inl ⟨answer, rfl, rfl⟩))
      | false => exact Or.inr (Or.inr (Or.inr ⟨answer, rfl, rfl⟩))

theorem resume_uses (E : Engine ρ) (q : Request) (errand : Errand q.Answer) (w : ρ) :
    let next := resume E q errand w
    next.1.weigh owes owes < errand.owes ∨
      (next.1.weigh owes owes ≤ errand.owes ∧ next.2 = w ∧
        next.1.weigh (lag (E.pauses w)) (fun errand => lag (E.pauses w) errand.wake + 1) <
          errand.lag (E.pauses w)) := by
  rcases resume_cases E q errand w with ⟨howes, heq⟩ | ⟨turns, howes, hturns, heq⟩ |
    ⟨answer, rfl, heq⟩ | ⟨answer, rfl, heq⟩
  · left
    rw [heq, howes]
    rcases issue_cases E q w with hissue | hissue
    · rw [hissue]
      exact Nat.one_pos
    · rw [hissue]
      exact Nat.one_pos
  · rw [heq, howes]
    exact Or.inr ⟨Nat.le_refl _, rfl, hturns⟩
  · rw [heq]
    exact Or.inr ⟨Nat.le_refl _, rfl, Nat.succ_pos _⟩
  · rw [heq]
    refine Or.inr ⟨Nat.le_refl _, rfl, ?_⟩
    simp only [Turn.weigh, wake, lag]
    omega

end Errand

namespace Stand

/-- The requests that an operation still makes, out of the number it makes altogether. -/
def left (whole : Nat) : Stand → Nat
  | fresh => whole
  | underway _ _ errand rest => rest.length + errand.owes

/-- The turns that an operation on its way has until its next request. -/
def lag (pauses : Nat) : Stand → Nat
  | fresh => pauses + 1
  | underway _ _ errand _ => errand.lag pauses

/-- A turn has less left, or has no more left and uses up a turn without a request. -/
def Uses (E : Engine ρ) (whole : Nat) (w : ρ) (requests turns : Nat)
    (result : Turn Stand (Except RuntimeError Unit) × ρ) : Prop :=
  result.1.weigh (left whole) (left whole) < requests ∨
    (result.1.weigh (left whole) (left whole) ≤ requests ∧ result.2 = w ∧
      result.1.weigh (lag (E.pauses w)) (fun stand => lag (E.pauses w) stand.wake + 1) < turns)

theorem takeOn_uses (E : Engine ρ) (whole : Nat) (created : String) (request : Request)
    (errand : Errand request.Answer) (rest : List Step) (w : ρ)
    (hrest : ∀ created w', Uses E whole w' rest.length (E.pauses w' + 1)
      (takeSteps E created rest w')) :
    Uses E whole w (rest.length + errand.owes) (errand.lag (E.pauses w))
      (takeOn E created request errand rest w) := by
  have hless : ∀ created w',
      (takeSteps E created rest w').1.weigh (left whole) (left whole) ≤ rest.length := by
    intro created w'
    rcases hrest created w' with h | h
    · exact Nat.le_of_lt h
    · exact h.1
  rcases Errand.resume_cases E request errand w with ⟨howes, heq⟩ | ⟨turns, howes, hturns, heq⟩ |
    ⟨answer, rfl, heq⟩ | ⟨answer, rfl, heq⟩
  -- The request is made, a turn is given up before it, its answer is there, or has just arrived.
  · left
    rw [howes]
    rcases Errand.issue_cases E request w with hissue | hissue
    · simp only [takeOn, heq, hissue, Turn.weigh, Stand.left, Errand.owes]
      omega
    · simp only [takeOn, heq, hissue]
      cases (E.call request w).1 with
      | error cause => exact Nat.succ_pos _
      | ok answer =>
          exact Nat.lt_succ_of_le (hless (createdAfter created request answer) _)
  · right
    rw [howes]
    simp only [takeOn, heq, Turn.weigh, Stand.left, Stand.lag, Errand.owes, Errand.lag]
    exact ⟨Nat.le_refl _, trivial, hturns⟩
  · simp only [takeOn, heq, Errand.owes, Errand.lag, Nat.add_zero]
    cases answer with
    | error cause =>
        right
        exact ⟨Nat.zero_le _, rfl, Nat.succ_pos _⟩
    | ok answer => exact hrest _ _
  · right
    simp only [takeOn, heq, Turn.weigh, Stand.left, Stand.lag, Stand.wake, Errand.wake, Errand.owes,
      Errand.lag]
    exact ⟨Nat.le_refl _, trivial, by omega⟩

theorem takeSteps_uses (E : Engine ρ) (whole : Nat) (steps : List Step) (created : String) (w : ρ) :
    Uses E whole w steps.length (E.pauses w + 1) (takeSteps E created steps w) := by
  induction steps generalizing created w with
  | nil => exact Or.inr ⟨Nat.zero_le _, rfl, Nat.succ_pos _⟩
  | cons step rest ih =>
      rw [takeSteps_cons]
      exact takeOn_uses E whole created (step.request created) .due rest w ih

end Stand

namespace Job

/-- The number of steps of an operation. -/
def whole (job : Job) : Nat :=
  match job.operation.steps with
  | .ok steps => steps.length
  | .error _ => 0

/-- What operations have left to do. -/
def gauge (E : Engine ρ) : Gauge Job (Site ρ) where
  left job := job.stand.left job.whole
  lag site job := job.stand.lag (E.pauses site.world)

theorem gauge_wake (E : Engine ρ) (job : Job) : (gauge E).left job.wake = (gauge E).left job := by
  rcases job with ⟨op, stand⟩
  cases stand with
  | fresh => rfl
  | underway created request errand rest => cases errand <;> rfl

theorem conclude_descends (E : Engine ρ) (job : Job) (site site' : Site ρ)
    {requests turns : Nat} {result : Turn Stand (Except RuntimeError Unit) × ρ}
    (h : Stand.Uses E job.whole site.world requests turns result)
    (hrequests : requests = job.stand.left job.whole)
    (hturns : turns = job.stand.lag (E.pauses site.world)) :
    (gauge E).Descends (conduct E) job site (conclude job.operation site' result).1
      (conclude job.operation site' result).2 := by
  rcases result with ⟨turn, w⟩
  subst hrequests hturns
  have hlag : w = site.world → (gauge E).lag (conclude job.operation site' (turn, w)).2 =
      (gauge E).lag site := by
    intro hw
    have hworld : (conclude job.operation site' (turn, w)).2.world = w := by
      cases turn with
      | finished result =>
          cases result with
          | ok =>
              rw [conclude, Site.complete]
              split <;> rfl
          | error cause => rfl
      | _ => rfl
    funext job'
    simp only [gauge, hworld]
    rw [hw]
  rcases h with hless | ⟨hle, hworld, hless⟩
  · left
    cases turn with
    | finished result => cases result <;> exact hless
    | _ => exact hless
  · right
    refine ⟨?_, hlag hworld, ?_⟩
    · cases turn with
      | finished result => cases result <;> exact hle
      | _ => exact hle
    · cases turn with
      | finished result => cases result <;> exact hless
      | _ => exact hless

/-- Every turn of an operation makes requests or uses up a turn. -/
theorem resume_descends (E : Engine ρ) (job : Job) (site : Site ρ) :
    (gauge E).Descends (conduct E) job site (job.resume E site).1 (job.resume E site).2 := by
  rcases job with ⟨op, stand⟩
  cases stand with
  | fresh =>
      cases hsteps : op.steps with
      | error cause =>
          simp only [resume, hsteps]
          exact Or.inr ⟨Nat.zero_le _, rfl, Nat.succ_pos _⟩
      | ok steps =>
          simp only [resume, hsteps]
          refine conclude_descends E ⟨op, .fresh⟩ site
            (site.report (op.event .working op.kind.beginning))
            (Stand.takeSteps_uses E _ steps "" site.world) ?_ rfl
          simp only [Stand.left, whole, hsteps]
  | underway created request errand rest =>
      simp only [resume]
      exact conclude_descends E ⟨op, .underway created request errand rest⟩ site site
        (Stand.takeOn_uses E _ created request errand rest site.world
          fun created w' => Stand.takeSteps_uses E _ rest created w') rfl rfl

end Job

end Fleet
