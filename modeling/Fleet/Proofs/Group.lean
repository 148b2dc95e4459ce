import Fleet.Group
import Mathlib.Algebra.GroupWithZero.Nat
import Mathlib.Data.Multiset.Bind

/-!
# What a move does to a group

A group keeps its tasks in a queue and a list of sleepers, and a move shifts
them about: a task that yields goes to the end, sleepers are roused when the
token is cancelled. Statements about what the tasks do should not see any of
this, so a group is looked at as the multiset of its tasks (`Group.slots`). Then
a poll is one task taken out and what its turn leaves put back
(`poll_of_getElem?`), and heeding the token changes nothing at all.

`step_invariant` is the rule that results. A fact about the tasks, the first
failure and the world is kept by every move if it is kept by a turn of one task,
by the arrival of what one task waits for, and by the end of the work.

## Main definitions

* `Group.slots`: The tasks of a group.
* `Group.taken?`: The task that a move gives a turn.
* `Turn.slots`: What a turn leaves of its task.
* `Turn.failure?`: The failure a turn ends with.

## Theorems

* `slots_heed`: Heeding the token keeps the tasks.
* `poll_of_getElem?`: What a poll does.
* `guarded_cases`: What a guard does to a turn.
* `step_of_untaken`: What is kept by a move that gives nobody a turn.
* `step_invariant`: What turns keep, moves keep.
* `foldl_invariant`: What moves keep, runs keep.
-/

namespace Fleet

namespace Turn

variable {σ : Type}

/-- What a turn leaves of its task. -/
def slots : Turn σ (Except Error Unit) → Multiset (Slot σ)
  | yielded task => {⟨task, true⟩}
  | asleep task => {⟨task, true⟩}
  | finished _ => 0

/-- The failure a turn ends with. -/
def failure? : Turn σ (Except Error Unit) → Option Error
  | finished (.error error) => some error
  | _ => none

end Turn

namespace Group

variable {σ W : Type}

/-- The tasks of a group, in no order. -/
def slots (g : Group σ) : Multiset (Slot σ) := ↑(g.ready ++ g.asleep)

theorem slots_ofTasks (tasks : List σ) :
    (ofTasks tasks).slots = (tasks : Multiset σ).map (⟨·, false⟩) := by
  simp only [slots, ofTasks, List.append_nil, Multiset.map_coe]

theorem slots_eq_zero_iff (g : Group σ) : g.slots = 0 ↔ g.isOver = true := by
  simp only [slots, isOver, Multiset.coe_eq_zero, List.append_eq_nil_iff, Bool.and_eq_true,
    List.isEmpty_iff]

theorem slots_rouse (g : Group σ) (change : σ → σ) :
    (g.rouse change).slots = (g.ready : Multiset (Slot σ)) +
      (g.asleep : Multiset (Slot σ)).map fun slot => { slot with task := change slot.task } := by
  simp only [slots, rouse, List.append_nil, Multiset.map_coe, Multiset.coe_add]

/-- Heeding the token keeps the tasks. -/
theorem slots_heed (C : Conduct σ W) (g : Group σ) (w : W) : (g.heed C w).slots = g.slots := by
  unfold heed
  split
  · rw [slots_rouse]
    simp only [id_eq, Multiset.map_id', Multiset.coe_add, slots]
  · rfl

@[simp] theorem heed_failure (C : Conduct σ W) (g : Group σ) (w : W) :
    (g.heed C w).failure = g.failure := by
  unfold heed
  split <;> rfl

@[simp] theorem heed_tripped (C : Conduct σ W) (g : Group σ) (w : W) :
    (g.heed C w).tripped = g.tripped := by
  unfold heed
  split <;> rfl

theorem slots_settle (g : Group σ) (turn : Turn σ (Except Error Unit)) :
    (g.settle turn).slots = turn.slots + g.slots := by
  cases turn with
  | yielded task =>
      simp only [slots, settle, Turn.slots, ← Multiset.coe_add, Multiset.coe_singleton]
      rw [add_right_comm, add_comm]
  | asleep task =>
      simp only [slots, settle, Turn.slots, ← Multiset.coe_add, Multiset.coe_singleton]
      rw [← add_assoc, add_comm]
  | finished result =>
      cases result <;> exact (zero_add _).symm

theorem settle_failure (g : Group σ) (turn : Turn σ (Except Error Unit)) :
    (g.settle turn).failure = g.failure.or turn.failure? := by
  cases turn with
  | finished result =>
      cases result
      · rfl
      · exact (Option.or_none).symm
  | _ => exact (Option.or_none).symm

theorem settle_tripped (g : Group σ) (turn : Turn σ (Except Error Unit)) :
    (g.settle turn).tripped = (g.tripped || turn.failure?.isSome) := by
  cases turn with
  | finished result =>
      cases result
      · exact (Bool.or_true _).symm
      · exact (Bool.or_false _).symm
  | _ => exact (Bool.or_false _).symm

theorem coe_eraseIdx {α : Type} {l : List α} {i : Nat} {a : α} (h : l[i]? = some a) :
    (l : Multiset α) = a ::ₘ ↑(l.eraseIdx i) := by
  rcases List.getElem?_eq_some_iff.mp h with ⟨hi, rfl⟩
  rw [Multiset.cons_coe, Multiset.coe_eq_coe]
  exact (List.getElem_cons_eraseIdx_perm hi).symm

/-- A poll takes a task out, gives it its turn, and puts back what the turn leaves. -/
theorem poll_of_getElem? {g : Group σ} {place : Nat} {slot : Slot σ}
    (h : g.ready[place]? = some slot) (C : Conduct σ W) (w : W) :
    let turn := guarded C.stopped C.resume slot.started slot.task ⟨g.tripped, w⟩
    ∃ rest, g.slots = slot ::ₘ rest ∧
      (g.poll C place w).1.slots = turn.1.slots + rest ∧
      (g.poll C place w).1.failure = g.failure.or turn.1.failure? ∧
      (g.poll C place w).1.tripped = (turn.2.tripped || turn.1.failure?.isSome) ∧
      (g.poll C place w).2 = turn.2.world := by
  intro turn
  refine ⟨↑(g.ready.eraseIdx place ++ g.asleep), ?_, ?_, ?_, ?_, ?_⟩
  · rw [slots, ← Multiset.coe_add, coe_eraseIdx h, Multiset.cons_add, Multiset.coe_add]
  all_goals simp only [poll, h]
  · rw [slots_heed, slots_settle]
    rfl
  · rw [heed_failure, settle_failure]
  · rw [heed_tripped, settle_tripped]
  · rfl

theorem poll_of_getElem?_none {g : Group σ} {place : Nat} (h : g.ready[place]? = none)
    (C : Conduct σ W) (w : W) : g.poll C place w = (g, w) := by
  simp only [poll, h]

/-- The task that a move gives a turn, if there is one. -/
def taken? (move : Move) (g : Group σ) : Option (Slot σ) :=
  match move with
  | .poll place => g.ready[place]?
  | _ => none

theorem step_of_taken? {move : Move} {g : Group σ} {slot : Slot σ}
    (h : g.taken? move = some slot) (C : Conduct σ W) (w : W) :
    let turn := guarded C.stopped C.resume slot.started slot.task ⟨g.tripped, w⟩
    ∃ rest, g.slots = slot ::ₘ rest ∧
      (g.step C move w).1.slots = turn.1.slots + rest ∧
      (g.step C move w).1.failure = g.failure.or turn.1.failure? ∧
      (g.step C move w).1.tripped = (turn.2.tripped || turn.1.failure?.isSome) ∧
      (g.step C move w).2 = turn.2.world := by
  cases move with
  | poll place => exact poll_of_getElem? h C w
  | _ => cases h

/-- A guarded task has its turn, or is dropped because of the token, before it has begun or at the
    end of its turn. -/
theorem guarded_cases {α : Type} (cancelled : W → Bool)
    (resume : σ → W → Turn σ (Except Error α) × W) (started : Bool) (task : σ) (w : W) :
    guarded cancelled resume started task w = resume task w ∨
    (guarded cancelled resume started task w = (.finished (.error .cancelled), w) ∧
      cancelled w = true) ∨
    (guarded cancelled resume started task w =
        (.finished (.error .cancelled), (resume task w).2) ∧
      cancelled (resume task w).2 = true) := by
  unfold guarded
  by_cases hbegun : (!started && cancelled w) = true
  · rw [if_pos hbegun]
    rw [Bool.and_eq_true] at hbegun
    exact Or.inr (Or.inl ⟨rfl, hbegun.2⟩)
  rw [if_neg hbegun]
  rcases resume task w with ⟨turn, after⟩
  cases turn with
  | finished result => exact Or.inl rfl
  | _ =>
      by_cases hstop : cancelled after = true
      · exact Or.inr (Or.inr ⟨if_pos hstop, hstop⟩)
      · exact Or.inl (if_neg hstop)

theorem guarded_of_going {C : Conduct σ W} {slot : Slot σ} {scope scope' : Scope W}
    {result : Except Error Unit} (hgoing : C.stopped scope = false)
    (hturn : C.resume slot.task scope = (.finished result, scope')) :
    guarded C.stopped C.resume slot.started slot.task scope = (.finished result, scope') := by
  rw [guarded, hgoing, Bool.and_false, hturn]
  rfl

theorem guarded_of_stopped {C : Conduct σ W} {slot : Slot σ} {scope : Scope W}
    (hfresh : slot.started = false) (hstopped : C.stopped scope = true) :
    guarded C.stopped C.resume slot.started slot.task scope =
      (.finished (.error .cancelled), scope) := by
  rw [guarded, hfresh, hstopped]
  rfl

/-- A turn that brings a task to its end takes it out of the group. -/
theorem poll_of_finished {C : Conduct σ W} {g : Group σ} {w : W} {place : Nat} {slot : Slot σ}
    {result : Except Error Unit} {scope : Scope W} (hslot : g.ready[place]? = some slot)
    (hturn : guarded C.stopped C.resume slot.started slot.task ⟨g.tripped, w⟩ =
      (.finished result, scope)) (hawake : g.asleep = []) :
    ∃ rest, g.slots = slot ::ₘ rest ∧ (g.poll C place w).1.slots = rest ∧
      (g.poll C place w).1.asleep = [] ∧
      (g.poll C place w).1.failure = g.failure.or (Turn.finished (σ := σ) result).failure? ∧
      (g.poll C place w).1.tripped =
        (scope.tripped || (Turn.finished (σ := σ) result).failure?.isSome) ∧
      (g.poll C place w).2 = scope.world := by
  rcases poll_of_getElem? hslot C w with ⟨rest, hslots, hslots', hfailure, htripped, hworld⟩
  rw [hturn] at hslots' hfailure htripped hworld
  refine ⟨rest, hslots, hslots'.trans (zero_add _), ?_, hfailure, htripped, hworld⟩
  simp only [poll, hslot, hturn, heed]
  split
  · rfl
  · cases result <;> exact hawake

section Invariant

variable (C : Conduct σ W) (Inv : Multiset (Slot σ) → Option Error → Scope W → Prop)

/-- A turn of any task keeps a fact. -/
def KeptByTurns : Prop := ∀ slot rest failure scope, Inv (slot ::ₘ rest) failure scope →
  let turn := guarded C.stopped C.resume slot.started slot.task scope
  Inv (turn.1.slots + rest) (failure.or turn.1.failure?)
    { turn.2 with tripped := turn.2.tripped || turn.1.failure?.isSome }

/-- The arrival of what any task waits for keeps a fact. -/
def KeptByWaking : Prop := ∀ (slot : Slot σ) rest failure scope,
  Inv (slot ::ₘ rest) failure scope →
    Inv ({ slot with task := C.wake slot.task } ::ₘ rest) failure scope

/-- The end of the work keeps a fact. -/
def KeptByCancelling : Prop := ∀ slots failure (scope : Scope W),
  Inv slots failure scope → Inv slots failure { scope with world := C.cancel scope.world }

variable {C Inv}

theorem rouse_invariant (hwake : KeptByWaking C Inv) (asleep : List (Slot σ))
    {others : Multiset (Slot σ)} {failure : Option Error} {scope : Scope W}
    (h : Inv (others + ↑asleep) failure scope) :
    Inv (others + (asleep : Multiset (Slot σ)).map
      fun slot => { slot with task := C.wake slot.task }) failure scope := by
  induction asleep generalizing others with
  | nil => exact h
  | cons slot asleep ih =>
      rw [← Multiset.cons_coe, Multiset.add_cons] at h
      have hone := hwake _ _ _ _ h
      rw [← Multiset.cons_add] at hone
      have hrest := ih hone
      rw [← Multiset.cons_coe, Multiset.map_cons, Multiset.add_cons, ← Multiset.cons_add]
      exact hrest

/-- What arrivals and the end of the work keep, a move keeps that gives nobody a turn. -/
theorem step_of_untaken (hwake : KeptByWaking C Inv) {move : Move}
    (hcancel : move = .cancel → KeptByCancelling C Inv) {g : Group σ} {w : W}
    (hnobody : g.taken? move = none) (h : Inv g.slots g.failure ⟨g.tripped, w⟩) :
    Inv (g.step C move w).1.slots (g.step C move w).1.failure
      ⟨(g.step C move w).1.tripped, (g.step C move w).2⟩ := by
  cases move with
  | poll place =>
      simp only [step]
      rw [poll_of_getElem?_none hnobody]
      exact h
  | fire =>
      simp only [step]
      rw [slots_rouse]
      rw [slots, ← Multiset.coe_add] at h
      exact rouse_invariant hwake g.asleep h
  | cancel =>
      simp only [step]
      rw [slots_heed, heed_failure, heed_tripped]
      exact hcancel rfl _ _ _ h

/-- What turns, arrivals and the end of the work keep, every move keeps. A fact that the end of the
    work does not keep is still kept by the other moves. -/
theorem step_invariant (hturn : KeptByTurns C Inv) (hwake : KeptByWaking C Inv) (move : Move)
    (hcancel : move = .cancel → KeptByCancelling C Inv) {g : Group σ} {w : W}
    (h : Inv g.slots g.failure ⟨g.tripped, w⟩) :
    Inv (g.step C move w).1.slots (g.step C move w).1.failure
      ⟨(g.step C move w).1.tripped, (g.step C move w).2⟩ := by
  cases htaken : g.taken? move with
  | none => exact step_of_untaken hwake hcancel htaken h
  | some slot =>
      rcases step_of_taken? htaken C w with ⟨rest, hslots, hslots', hfail, htrip, hworld⟩
      rw [hslots] at h
      rw [hslots', hfail, htrip, hworld]
      exact hturn _ _ _ _ h

end Invariant

end Group

/-- What moves keep, runs keep. -/
theorem foldl_invariant {S : Type} {step : Move → S → S} {Inv : S → Prop}
    (hstep : ∀ move s, Inv s → Inv (step move s)) (moves : List Move) {s : S} (h : Inv s) :
    Inv (moves.foldl (fun s move => step move s) s) := by
  induction moves generalizing s with
  | nil => exact h
  | cons move moves ih => exact ih (hstep move s h)

end Fleet
