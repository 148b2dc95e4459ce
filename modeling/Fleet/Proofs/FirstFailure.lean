import Fleet.Proofs.Turns

/-!
# The first failure of a group

The first task to fail decides what the group reports, and brings the group to its end.
The two are about the turns before it and the turns after it.

What a group reports is what its tasks have come to, in the order in which they did
(`reports_first_failure`). A failure that is reported is the task's own, and not a
dropping, unless a token was cancelled before; for a turn drops its task under a cancelled
token only, and it is the first failure by which the group itself cancels one.

From the first failure on the token is cancelled and stays so. Then every turn ends the
task that has it, so there is at most one more of each, and it is a real turn only if the
task had begun (`Winding`). Nobody sleeps any more, so the group is over after as many
turns as there are tasks left, even if none of them would ever end by itself
(`winds_up_after_failure`).

## Main definitions

* `Winding`: What is known of the turns after the first failure.

## Theorems

* `Group.reports_first_failure`: A group reports its first failure, unchanged.
* `winding_play`: What is known of the turns after the first failure, whatever the moves.
* `Group.winds_up_after_failure`: After a failure each task has one more turn at the most.
-/

namespace Fleet

variable {σ W : Type}

/-! ### What a group reports -/

theorem Group.outcome_eq_ok_iff (g : Group σ) : g.outcome = .ok () ↔ g.failure = none := by
  rw [outcome]
  cases g.failure <;> simp

theorem Group.outcome_eq_error_iff {g : Group σ} {error : Error} :
    g.outcome = .error error ↔ g.failure = some error := by
  rw [outcome]
  cases g.failure <;> simp

/-- No failure among turns means that all outcomes are well. -/
theorem failure?_eq_none_iff (turns : List (Slice σ W)) :
    (∀ slice ∈ turns, slice.fate.failure? = none) ↔
      ∀ outcome ∈ turns.filterMap (·.outcome?), outcome.2 = .ok () := by
  have hfate : ∀ fate : Fate, fate.failure? = none ↔
      ∀ result, fate.outcome? = some result → result = .ok () := by
    rintro (_ | _ | _ | _ | _) <;> simp [Fate.failure?, Fate.outcome?]
  constructor
  · intro h outcome houtcome
    rcases List.mem_filterMap.mp houtcome with ⟨slice, hslice, heq⟩
    rcases Option.map_eq_some_iff.mp heq with ⟨result, hresult, rfl⟩
    exact (hfate slice.fate).mp (h slice hslice) result hresult
  · intro h slice hslice
    refine (hfate slice.fate).mpr fun result hresult => ?_
    refine h (slice.number, result) (List.mem_filterMap.mpr ⟨slice, hslice, ?_⟩)
    rw [Slice.outcome?, hresult]
    rfl

/-- A failure is the task's own unless a token was cancelled. -/
theorem Slice.Runs.own {C : Conduct σ W} {slice : Slice σ W} (hruns : slice.Runs C) {error : Error}
    (hfailure : slice.fate.failure? = some error) (hgoing : C.stopped slice.after = false) :
    slice.fate = .ended (.error error) := by
  unfold Slice.Runs at hruns
  cases hfate : slice.fate with
  | refused =>
      rw [hfate] at hruns
      rw [hruns.1, hruns.2] at hgoing
      cases hgoing
  | paused =>
      rw [hfate] at hfailure
      cases hfailure
  | dropped =>
      rw [hfate] at hruns
      rw [hruns.2] at hgoing
      cases hgoing
  | ended result =>
      rw [hfate] at hfailure
      cases result with
      | ok => cases hfailure
      | error error' => rw [Option.some.inj hfailure]

/-- Whatever its tasks do and whatever the order of their turns, a group that is over has an outcome
    of each of its tasks. It reports success if and only if all of them are well, and otherwise the
    error, unchanged, of the first turn that has led to one, which is the task's own unless a token
    was cancelled by then. With an error the group's token is cancelled. The group itself never
    does anything to the world, the caller's token included. -/
theorem Group.reports_first_failure (C : Conduct σ W) (hlasting : C.Lasting) (tasks : List σ)
    (moves : List Move) (w : W) (hover : (play C moves (ofTasks tasks) w).1.isOver = true) :
    let after := play C moves (ofTasks tasks) w
    let turns := turns C tasks moves w
    let outcomes := turns.filterMap (·.outcome?)
    (outcomes.map (·.1)).Perm (List.range tasks.length) ∧
      (after.1.outcome = .ok () ↔ ∀ outcome ∈ outcomes, outcome.2 = .ok ()) ∧
      (∀ error, after.1.outcome = .error error → after.1.tripped = true ∧
        ∃ earlier slice later, turns = earlier ++ slice :: later ∧
          (∀ outcome ∈ earlier.filterMap (·.outcome?), outcome.2 = .ok ()) ∧
          slice.fate.outcome? = some (.error error) ∧
          (C.stopped slice.after = false → slice.fate = .ended (.error error))) ∧
      Threaded C w turns after.2 := by
  intro after turns outcomes
  have hchronicle := chronicle_play hlasting tasks moves w
  have hplay : after = _ := numbered_play C moves tasks w
  have hafter : after.1.isOver = true := hover
  rw [hplay] at hafter ⊢
  simp only at hchronicle
  generalize play C.numbered moves (ofTasks tasks.zipIdx) w = next at hchronicle hafter
  rcases next with ⟨g, now⟩
  have hslots : g.slots = 0 := by
    rw [slots_eq_zero_iff]
    simpa only [isOver, map, List.isEmpty_map] using hafter
  have hnumbers := hchronicle.numbers
  simp only [hslots, Multiset.map_zero, add_zero, Multiset.coe_eq_coe] at hnumbers
  refine ⟨hnumbers, ?_, ?_, hchronicle.threaded⟩
  · rw [outcome_eq_ok_iff, ← failure?_eq_none_iff, show (g.map Prod.fst).failure = _ from
      hchronicle.first, List.findSome?_eq_none_iff]
  · intro error herror
    have hfailure : g.failure = some error := outcome_eq_error_iff.mp herror
    have hfirst := hchronicle.first
    rw [hfailure] at hfirst
    rcases List.findSome?_eq_some_iff.mp hfirst.symm with
      ⟨earlier, slice, later, hsplit, hslice, hearlier⟩
    refine ⟨hchronicle.tripped (by rw [hfailure]; exact Option.some_ne_none error), earlier, slice,
      later, hsplit, (failure?_eq_none_iff earlier).mp hearlier,
      Fate.outcome?_eq_error_iff.mpr hslice, fun hgoing => ?_⟩
    have hmem : slice ∈ Group.turns C tasks moves w := by
      rw [hsplit]
      exact List.mem_append_right _ List.mem_cons_self
    exact (hchronicle.threaded.runs slice hmem).own hslice hgoing

/-- Three scripted tasks: one fails in its first turn, one yields once and then waits for ever, and
    one ends well. -/
def Script.trio : List Script.Actor :=
  [⟨⟨"a", 0, .badly⟩, .beginning⟩, ⟨⟨"b", 1, .never⟩, .beginning⟩, ⟨⟨"c", 0, .well⟩, .beginning⟩]

/-- The three tasks with a turn of the second one first: the first one fails, the third is refused
    and the second dropped. -/
theorem Group.reports_first_failure_trio :
    let moves : List Move := [.poll 1, .poll 0, .poll 0, .poll 0]
    let after := play Script.conduct moves (ofTasks Script.trio) ⟨[], false⟩
    after.1.isOver = true ∧ after.1.failure = some (.settings (.other "task a")) ∧
      after.1.tripped = true ∧
      Threaded Script.conduct ⟨[], false⟩
        (turns Script.conduct Script.trio moves ⟨[], false⟩) after.2 := by
  intro moves after
  have hover : after.1.isOver = true := by decide +kernel
  have hfailure : after.1.failure = some (.settings (.other "task a")) := by decide +kernel
  rcases reports_first_failure Script.conduct Script.conduct_lasting Script.trio moves ⟨[], false⟩
    hover with ⟨_, _, hreport, hthreaded⟩
  exact ⟨hover, hfailure, (hreport _ (outcome_eq_error_iff.mpr hfailure)).1, hthreaded⟩

/-! ### What comes after -/

/-- What is known of the turns since the first failure, given the numbers of the tasks that were
    left then and the numbers of those that had begun. -/
structure Winding (C : Conduct σ W) (left : Multiset Nat) (started : List Nat)
    (rest : List (Slice σ W)) (slots : Multiset (Slot (σ × Nat))) (scope : Scope W) : Prop where
  tripped : scope.tripped = true
  -- Each task left is still there, or has had a turn since.
  left : (rest.map (·.number) : Multiset Nat) + slots.map (·.task.2) = left
  begun : ∀ slot ∈ slots, (slot.started = true ↔ slot.task.2 ∈ started)
  -- A task that had not begun is refused, and one that had is dropped or comes to its own end.
  fates : ∀ slice ∈ rest, slice.Runs C ∧ (slice.number ∉ started → slice.fate = .refused) ∧
    (slice.number ∈ started → slice.fate = .dropped ∨ ∃ result, slice.fate = .ended result)

section Winding

variable {C : Conduct σ W} {left : Multiset Nat} {started : List Nat} {scope : Scope W}

/-- What turns come to under a cancelled token. -/
theorem Conduct.Lasting.fate (h : C.Lasting) (hstopped : C.stopped scope = true) (began : Bool)
    (task : σ) : (began = false → C.fate began task scope = .refused) ∧
      (began = true → C.fate began task scope = .dropped ∨
        ∃ result, C.fate began task scope = .ended result) := by
  have hafter := h.stopped task hstopped
  constructor
  · rintro rfl
    rw [Conduct.fate, hstopped]
    rfl
  · rintro rfl
    rw [Conduct.fate, Bool.not_true, Bool.false_and, if_neg Bool.false_ne_true]
    rcases hresume : C.resume task scope with ⟨turn, after⟩
    rw [hresume] at hafter
    cases turn with
    | finished result => exact Or.inr ⟨result, rfl⟩
    | _ => exact Or.inl (if_pos hafter)

/-- One more turn keeps what is known since the first failure. -/
theorem winding_keptBySlices (h : C.Lasting) : Group.KeptBySlices C
    fun rest slots _ scope => Winding C left started rest slots scope := by
  intro rest slot others failure scope hwinding next slice
  have hstopped : C.stopped scope = true := Bool.or_eq_true_iff.mpr (Or.inl hwinding.tripped)
  rcases C.slice_spec slot scope with ⟨_, _, hruns, hslots⟩
  rcases h.fate hstopped slot.started slot.task.1 with ⟨hrefused, hover⟩
  have hbegun := hwinding.begun slot (Multiset.mem_cons_self _ _)
  have hgone : next.1.slots = 0 := by
    rcases hslots with ⟨hpaused, _⟩ | ⟨_, hslots⟩
    · have hfate : C.fate slot.started slot.task.1 scope = .paused := hpaused
      cases hstarted : slot.started with
      | false =>
          rw [hrefused hstarted] at hfate
          cases hfate
      | true =>
          rcases hover hstarted with heq | ⟨result, heq⟩
          · rw [heq] at hfate
            cases hfate
          · rw [heq] at hfate
            cases hfate
    · exact hslots
  have hleft := hwinding.left
  rw [Multiset.map_cons] at hleft
  refine ⟨?_, ?_, ?_, ?_⟩
  · exact Bool.or_eq_true_iff.mpr (Or.inl (hruns.tripped h hwinding.tripped))
  · rw [hgone, zero_add, List.map_append, ← Multiset.coe_add, add_assoc]
    exact hleft
  · intro slot' hslot'
    rw [hgone, zero_add] at hslot'
    exact hwinding.begun slot' (Multiset.mem_cons_of_mem hslot')
  · intro slice' hslice'
    rcases List.mem_append.mp hslice' with hslice' | hslice'
    · exact hwinding.fates slice' hslice'
    · rw [List.mem_singleton.mp hslice']
      refine ⟨hruns, fun hnot => hrefused ?_, fun hmem => hover (hbegun.mpr hmem)⟩
      exact Bool.eq_false_iff.mpr fun hstarted => hnot (hbegun.mp hstarted)

theorem winding_keptByWaking (rest : List (Slice σ W)) : Group.KeptByWaking C.numbered
    fun slots _ scope => Winding C left started rest slots scope := by
  intro slot others failure scope h
  have hleft := h.left
  rw [Multiset.map_cons] at hleft
  refine ⟨h.tripped, ?_, ?_, h.fates⟩
  · rw [Multiset.map_cons]
    exact hleft
  · intro slot' hslot'
    rcases Multiset.mem_cons.mp hslot' with rfl | hslot'
    · exact h.begun slot (Multiset.mem_cons_self _ _)
    · exact h.begun slot' (Multiset.mem_cons_of_mem hslot')

/-- What is known of the turns after the first failure, whatever the moves. -/
theorem winding_play (h : C.Lasting) (tasks : List σ) (before after : List Move) (w : W)
    (hfailed : (Group.play C before (.ofTasks tasks) w).1.failure ≠ none) :
    let mid := Group.play C.numbered before (.ofTasks tasks.zipIdx) w
    let next := Group.play C.numbered after mid.1 mid.2
    Winding C (mid.1.slots.map (·.task.2)) (begun (Group.turns C tasks before w))
      (Group.slices C after mid.1 mid.2) next.1.slots ⟨next.1.tripped, next.2⟩ := by
  intro mid
  have hchronicle := chronicle_play h tasks before w
  rw [Group.numbered_play] at hfailed
  exact Group.turns_rule (winding_keptBySlices h) winding_keptByWaking
    (fun _ _ _ _ hwinding => ⟨hwinding.tripped, hwinding.left, hwinding.begun, hwinding.fates⟩)
    after ⟨hchronicle.tripped hfailed, zero_add _, hchronicle.begun,
      fun _ hslice => absurd hslice List.not_mem_nil⟩

end Winding

/-- Once a task has failed, whatever the tasks do and whatever the order of their turns, each task
    that is left has one more turn at the most. One that had not begun is refused, and nothing
    happens; one that had begun comes to its own end, or is dropped at the end of the turn. As long
    as the group is not over there is a task that can have its turn, and each turn takes one out; so
    the group is over after as many turns as there are tasks left. -/
theorem Group.winds_up_after_failure (C : Conduct σ W) (hlasting : C.Lasting) (tasks : List σ)
    (before after : List Move) (w : W)
    (hfailed : (play C before (ofTasks tasks) w).1.failure ≠ none) :
    let mid := play C before (ofTasks tasks) w
    let now := play C (before ++ after) (ofTasks tasks) w
    let past := turns C tasks before w
    (∃ rest, turns C tasks (before ++ after) w = past ++ rest ∧ (begun rest).Nodup ∧
      rest.length + now.1.size = mid.1.size ∧
      ∀ slice ∈ rest, slice.Runs C ∧ (slice.number ∉ begun past → slice.fate = .refused) ∧
        (slice.number ∈ begun past →
          slice.fate = .dropped ∨ ∃ result, slice.fate = .ended result)) ∧
      (now.1.isOver = false → now.1.ready ≠ [] ∧ ∀ place < now.1.ready.length,
        (now.1.poll C place now.2).1.size + 1 = now.1.size) ∧
      ∃ last, drive (fun s : Group σ × W => s.1.next?) (fun move s => s.1.step C move s.2)
        now.1.size now = some last ∧ last.1.isOver = true := by
  intro mid now past
  have hwinding := winding_play hlasting tasks before after w hfailed
  have hchronicle := chronicle_play hlasting tasks before w
  have hmid : mid = _ := numbered_play C before tasks w
  have hnow : now = _ := numbered_play C (before ++ after) tasks w
  have hawake : now.1.Awake C now.2 := awake_play C (before ++ after) tasks w
  have hsize : ∀ g : Group (σ × Nat), (g.map Prod.fst).size = Multiset.card g.slots := by
    intro g
    rw [card_slots, size, size, map, List.length_map, List.length_map]
  rw [play_append] at hnow
  have hstopped : C.stopped ⟨now.1.tripped, now.2⟩ = true := by
    rw [hnow]
    exact Bool.or_eq_true_iff.mpr (Or.inl hwinding.tripped)
  refine ⟨⟨_, slices_append C before after _ w, ?_, ?_, hwinding.fates⟩, ?_, ?_⟩
  · -- The tasks left are some of all tasks, which have distinct numbers.
    have hnodup : (List.range tasks.length : Multiset Nat).Nodup :=
      Multiset.coe_nodup.mpr List.nodup_range
    rw [← hchronicle.numbers, Multiset.nodup_add, ← hwinding.left, Multiset.nodup_add] at hnodup
    exact Multiset.coe_nodup.mp hnodup.2.1.1
  · have hcard := congrArg Multiset.card hwinding.left
    rw [Multiset.card_add, Multiset.card_map, Multiset.card_map, Multiset.coe_card,
      List.length_map] at hcard
    rw [hnow, hmid, hsize, hsize]
    exact hcard
  · intro hgoing
    exact ⟨ready_ne_nil (hawake hstopped) hgoing, fun place hplace =>
      (size_poll hlasting hstopped hplace).1⟩
  · exact drive_of_stopped hlasting hstopped hawake

/-- The three tasks when the first one has failed: the second one, which would wait for ever, is
    left with one more turn, and the third with none. -/
theorem Group.winds_up_after_failure_trio :
    let mid := play Script.conduct [.poll 1, .poll 0] (ofTasks Script.trio) ⟨[], false⟩
    mid.1.failure ≠ none ∧ mid.1.size = 2 ∧
      ∃ last, drive (fun s : Group Script.Actor × Script.Notes => s.1.next?)
        (fun move s => s.1.step Script.conduct move s.2) mid.1.size mid = some last ∧
        last.1.isOver = true := by
  intro mid
  have hfailed : mid.1.failure ≠ none := by decide +kernel
  have hwinds := winds_up_after_failure Script.conduct Script.conduct_lasting Script.trio
    [.poll 1, .poll 0] [] ⟨[], false⟩ hfailed
  rw [List.append_nil] at hwinds
  exact ⟨hfailed, by decide +kernel, hwinds.2.2⟩

end Fleet
