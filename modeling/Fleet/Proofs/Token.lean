import Fleet.Drill.Script
import Fleet.Proofs.Mirror
import Fleet.Proofs.Throughout

/-!
# Groups under a cancelled token

A group of tasks may never come to its end by itself, since a task may go on waiting for
ever. What brings it to its end is its token. A task that has not begun when the token is
cancelled never does, and every other task is dropped at the end of its next turn if it is
not done by then. So each turn under a cancelled token takes one task out of the group
(`Conduct.Lasting.turn_ends`), and there is always somebody to have one, since nobody
sleeps then (`awake_play`).

A token that has been cancelled stays so. This is documented behaviour of tokens, but here
the caller's token is a part of the world and the group's own is handed to every task, so
it has to be said of the tasks that they do not tamper with either (`Conduct.Lasting`).
Tasks that run against an engine never do if requests do not (`Engine.Lasting`).

## Main definitions

* `Conduct.Lasting`: Cancelled tokens stay cancelled.
* `Engine.Lasting`: No request takes back the end of the work.

## Theorems

* `Conduct.Lasting.turn_ends`: A turn under a cancelled token ends its task.
* `Group.awake_play`: Under a cancelled token nobody sleeps.
* `Group.size_poll`: A turn under a cancelled token takes one task out of the group.
* `Group.drive_of_stopped`: Under a cancelled token each task has one more turn at the most.
* `Gate.conduct_lasting`, `Job.conduct_lasting`: Gates and operations leave tokens alone.
-/

namespace Fleet

variable {σ W ρ : Type}

/-! ### Tokens -/

/-- A token that has been cancelled stays so: the group's, the caller's, and the latter is cancelled
    once the caller has cancelled it. -/
structure Conduct.Lasting (C : Conduct σ W) : Prop where
  tripped : ∀ task scope, scope.tripped = true → (C.resume task scope).2.tripped = true
  cancelled : ∀ task scope, C.cancelled scope.world = true →
    C.cancelled (C.resume task scope).2.world = true
  cancel : ∀ w, C.cancelled (C.cancel w) = true

namespace Conduct.Lasting

variable {C : Conduct σ W} {scope : Scope W}

theorem stopped (h : C.Lasting) (task : σ) (hstopped : C.stopped scope = true) :
    C.stopped (C.resume task scope).2 = true := by
  rcases Bool.or_eq_true_iff.mp hstopped with htripped | hcancelled
  · exact Bool.or_eq_true_iff.mpr (Or.inl (h.tripped task scope htripped))
  · exact Bool.or_eq_true_iff.mpr (Or.inr (h.cancelled task scope hcancelled))

/-- A turn under a cancelled token ends its task. -/
theorem turn_ends (h : C.Lasting) (started : Bool) (task : σ) (hstopped : C.stopped scope = true) :
    let next := guarded C.stopped C.resume started task scope
    (∃ result, next.1 = .finished result) ∧ C.stopped next.2 = true := by
  cases started with
  | false =>
      rw [guarded, Bool.not_false, Bool.true_and, if_pos hstopped]
      exact ⟨⟨_, rfl⟩, hstopped⟩
  | true =>
      have hafter := h.stopped task hstopped
      rw [guarded, Bool.not_true, Bool.false_and, if_neg Bool.false_ne_true]
      rcases hresume : C.resume task scope with ⟨turn, after⟩
      rw [hresume] at hafter
      cases turn with
      | finished result => exact ⟨⟨result, rfl⟩, hafter⟩
      | _ =>
          simp only [if_pos hafter]
          exact ⟨⟨_, rfl⟩, hafter⟩

end Conduct.Lasting

/-! ### Groups -/

namespace Group

variable {C : Conduct σ W} {g : Group σ} {w : W}

/-- Under a cancelled token nobody sleeps. -/
def Awake (C : Conduct σ W) (g : Group σ) (w : W) : Prop :=
  C.stopped ⟨g.tripped, w⟩ = true → g.asleep = []

theorem awake_heed (C : Conduct σ W) (g : Group σ) (w : W) : (g.heed C w).Awake C w := by
  intro hstopped
  rw [heed_tripped] at hstopped
  rw [heed, if_pos hstopped]
  rfl

theorem awake_step (move : Move) (h : g.Awake C w) :
    (g.step C move w).1.Awake C (g.step C move w).2 := by
  cases move with
  | poll place =>
      cases hslot : g.ready[place]? with
      | none =>
          simp only [step, poll_of_getElem?_none hslot]
          exact h
      | some slot =>
          simp only [step, poll, hslot]
          exact awake_heed C _ _
  | fire => exact fun _ => rfl
  | cancel => exact awake_heed C _ _

/-- Whatever the moves, under a cancelled token nobody sleeps. -/
theorem awake_play (C : Conduct σ W) (moves : List Move) (tasks : List σ) (w : W) :
    (play C moves (ofTasks tasks) w).1.Awake C (play C moves (ofTasks tasks) w).2 := by
  let Inv := fun s : Group σ × W => s.1.Awake C s.2
  refine foldl_invariant (?_ : ∀ move s, Inv s → Inv (s.1.step C move s.2)) moves fun _ => rfl
  exact fun move s h => awake_step move h

theorem card_slots (g : Group σ) : Multiset.card g.slots = g.size := by
  rw [slots, Multiset.coe_card, List.length_append]
  rfl

/-- A turn under a cancelled token takes one task out of the group. -/
theorem size_poll (h : C.Lasting) (hstopped : C.stopped ⟨g.tripped, w⟩ = true) {place : Nat}
    (hplace : place < g.ready.length) : (g.poll C place w).1.size + 1 = g.size ∧
      C.stopped ⟨(g.poll C place w).1.tripped, (g.poll C place w).2⟩ = true := by
  have hslot : g.ready[place]? = some g.ready[place] := List.getElem?_eq_getElem hplace
  rcases poll_of_getElem? hslot C w with ⟨rest, hslots, hslots', _, htripped, hworld⟩
  rcases h.turn_ends g.ready[place].started g.ready[place].task hstopped with
    ⟨⟨result, hresult⟩, hafter⟩
  refine ⟨?_, ?_⟩
  · rw [← card_slots, ← card_slots, hslots, hslots', hresult, Turn.slots, zero_add,
      Multiset.card_cons]
  · rw [htripped, hworld]
    rcases Bool.or_eq_true_iff.mp hafter with hafter | hafter
    · exact Bool.or_eq_true_iff.mpr (Or.inl (Bool.or_eq_true_iff.mpr (Or.inl hafter)))
    · exact Bool.or_eq_true_iff.mpr (Or.inr hafter)

theorem ready_ne_nil (hawake : g.asleep = []) (hgoing : g.isOver = false) : g.ready ≠ [] := by
  intro hready
  rw [isOver, hready, hawake] at hgoing
  cases hgoing

/-- Under a cancelled token the group is over after one more turn of each task. -/
theorem drive_of_stopped (h : C.Lasting) (hstopped : C.stopped ⟨g.tripped, w⟩ = true)
    (hawake : g.Awake C w) : ∃ last, drive (fun s : Group σ × W => s.1.next?)
      (fun move s => s.1.step C move s.2) g.size (g, w) = some last ∧ last.1.isOver = true := by
  generalize hsize : g.size = turns
  induction turns generalizing g w with
  | zero =>
      have hover : g.isOver = true := by
        rw [← slots_eq_zero_iff, ← Multiset.card_eq_zero, card_slots, hsize]
      have hnext : g.next? = none := by rw [next?, if_pos hover]
      refine ⟨(g, w), ?_, hover⟩
      simp only [drive, hnext]
  | succ turns ih =>
      have hgoing : g.isOver = false := by
        rw [← Bool.not_eq_true, ← slots_eq_zero_iff, ← Multiset.card_eq_zero, card_slots, hsize]
        exact Nat.succ_ne_zero turns
      have hready := ready_ne_nil (hawake hstopped) hgoing
      have hnext : g.next? = some (.poll 0) := by
        rw [next?, hgoing, if_neg Bool.false_ne_true, if_neg]
        rw [List.isEmpty_iff]
        exact hready
      rcases size_poll h hstopped (List.length_pos_iff.mpr hready) with ⟨hless, hstopped'⟩
      rcases ih hstopped' (awake_step (.poll 0) hawake) (Nat.succ.inj (hless.trans hsize)) with
        ⟨last, hlast, hover⟩
      refine ⟨last, ?_, hover⟩
      unfold drive
      rw [hnext]
      exact hlast

end Group

/-! ### Engines -/

/-- No request takes back the end of the work. -/
structure Engine.Lasting (E : Engine ρ) : Prop where
  call : ∀ q w, E.cancelled w = true → E.cancelled (E.call q w).2 = true
  cancel : ∀ w, E.cancelled (E.cancel w) = true

section Engine

variable {E : Engine ρ}

theorem Engine.Lasting.kept (h : E.Lasting) : KeptByCalls E fun w => E.cancelled w = true := h.call

theorem Engine.Lasting.recorded (h : E.Lasting) : E.recorded.Lasting :=
  ⟨fun q r => h.call q r.world, fun r => h.cancel r.world⟩

theorem Gate.pollOn_scope (E : Engine ρ) (project dependency : String) (poll : Poll)
    (scope : Scope ρ) : (pollOn E project dependency poll scope).2 =
      { scope with world := (Poll.resume E project dependency poll scope.world).2 } := by
  rw [pollOn]
  rcases Poll.resume E project dependency poll scope.world with ⟨turn, w⟩
  cases turn with
  | finished verdict =>
      rcases verdict with error | _ | _
      · rfl
      · simp only
        split <;> rfl
      · rfl
  | _ => rfl

/-- A gate leaves the group's token alone, and does the same to the world whatever it says. -/
theorem Gate.watch_scope (E : Engine ρ) (project : String) (watch : Watch) (scope : Scope ρ) :
    (watch.resume E project scope).2 =
      { scope with world := (watch.resume E project ⟨false, scope.world⟩).2.world } := by
  rcases watch with ⟨dependency, gate⟩
  rcases gate with poll | _ | _
  · simp only [Watch.resume, resume, pollOn_scope]
  · simp only [Watch.resume, resume]
    split <;> split <;> rfl
  · simp only [Watch.resume, resume, pollOn_scope]

/-- Gates leave tokens alone. -/
theorem Gate.conduct_lasting (h : E.Lasting) (project : String) :
    (Gate.conduct E project).Lasting where
  tripped watch scope htripped :=
    (congrArg Scope.tripped (watch_scope E project watch scope)).trans htripped
  cancelled watch _ hcancelled := watch_keeps h.kept.keptByLooking project watch hcancelled
  cancel := h.cancel

/-- Operations leave tokens alone. -/
theorem Job.conduct_lasting (h : E.Lasting) : (Job.conduct E).Lasting where
  tripped _ _ htripped := htripped
  cancelled job _ hcancelled := Job.resume_kept h.kept job hcancelled
  cancel site := h.cancel site.world

end Engine

/-! ### Scripts -/

/-- Scripted tasks may cancel tokens, and do not take it back. -/
theorem Script.conduct_lasting : Script.conduct.Lasting := by
  have hfinish : ∀ script (scope : Scope Notes),
      (scope.tripped = true → (finish script scope).2.tripped = true) ∧
      (scope.world.cancelled = true → (finish script scope).2.world.cancelled = true) := by
    intro script scope
    rw [finish]
    cases script.ending with
    | cancelCaller => exact ⟨id, fun _ => rfl⟩
    | cancelGroup => exact ⟨fun _ => rfl, id⟩
    | _ => exact ⟨id, id⟩
  have hgoOn : ∀ script turn (scope : Scope Notes),
      (scope.tripped = true → (goOn script turn scope).2.tripped = true) ∧
      (scope.world.cancelled = true → (goOn script turn scope).2.world.cancelled = true) := by
    intro script turn scope
    rw [goOn]
    split
    · exact ⟨id, id⟩
    · exact hfinish script scope
  have hresume : ∀ (actor : Actor) scope,
      (scope.tripped = true → (actor.resume scope).2.tripped = true) ∧
      (scope.world.cancelled = true → (actor.resume scope).2.world.cancelled = true) := by
    rintro ⟨script, place⟩ scope
    cases place with
    | beginning => exact hgoOn script 1 (note script "start" scope)
    | counting turn => exact hgoOn script (turn + 1) (note script (toString turn) scope)
    | _ => exact ⟨id, id⟩
  exact ⟨fun actor scope => (hresume actor scope).1, fun actor scope => (hresume actor scope).2,
    fun _ => rfl⟩

end Fleet
