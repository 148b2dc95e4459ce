import Fleet.Proofs.Token

/-!
# The turns of a group

What a group reports depends on which of its tasks came to an end when, and a group does
not show it: a task that is done is gone, and of several failures only the first is kept.
So the turns are looked at one by one. Each is a `Slice`, with the task that had it, what
it came to (`Fate`), and the scope before and after it. A task that is refused since the
token was cancelled before it had begun has a slice too, in which nothing happens.

To tell the tasks of a group apart they are numbered. A number is carried along and has no
part in what a task does (`Conduct.numbered`), so forgetting the numbers of a run gives the
run without them (`numbered_play`), and the turns of a run are those of the numbered one
(`Group.turns`).

`turns_rule` is the rule for statements about the turns so far: it is enough to look at one
turn, one arrival, and the end of the work. With it everything is known that is said of
turns elsewhere (`Chronicle`).

## Main definitions

* `Conduct.numbered`: The conduct of numbered tasks.
* `Fate`, `Slice`: What a turn has come to, and the turn.
* `Group.turns`: The turns of the tasks of a group, in their order.
* `Threaded`: Only tasks in their turns, and the caller, act on the world.
* `Chronicle`: What is known of a group from its turns so far.

## Theorems

* `Group.numbered_play`: Numbers make no difference.
* `slice_spec`: What a slice says about a turn.
* `turns_rule`: To follow turns it is enough to look at one.
* `chronicle_play`: The chronicle of any moves.
-/

namespace Fleet

variable {σ W : Type}

/-! ### Numbered tasks -/

/-- How numbered tasks act: as they do without their numbers. -/
def Conduct.numbered (C : Conduct σ W) : Conduct (σ × Nat) W where
  cancelled := C.cancelled
  cancel := C.cancel
  resume task scope :=
    match C.resume task.1 scope with
    | (turn, scope) => (turn.map (·, task.2) id, scope)
  wake task := (C.wake task.1, task.2)

/-- Numbers make no difference. -/
theorem Conduct.numbered_mirrors (C : Conduct σ W) : C.numbered.Mirrors C Prod.fst id where
  cancelled _ := rfl
  cancel _ := rfl
  wake _ := rfl
  resume := by
    rintro ⟨task, number⟩ scope
    have hmap : ∀ turn : Turn σ (Except Error Unit), (turn.map (·, number) id).map Prod.fst id =
        turn := by
      intro turn
      cases turn <;> rfl
    have hscope : ∀ scope : Scope W, scope.map id = scope := fun _ => rfl
    simp only [numbered, hscope, hmap]

/-- A guarded turn of a numbered task is one of the task. -/
theorem guarded_numbered (C : Conduct σ W) (slot : Slot (σ × Nat)) (scope : Scope W) :
    guarded C.numbered.stopped C.numbered.resume slot.started slot.task scope =
      ((guarded C.stopped C.resume slot.started slot.task.1 scope).1.map (·, slot.task.2) id,
        (guarded C.stopped C.resume slot.started slot.task.1 scope).2) := by
  have hturn : ∀ task scope, C.numbered.resume (task, slot.task.2) (id scope) =
      ((C.resume task scope).1.map (·, slot.task.2) id, id (C.resume task scope).2) :=
    fun _ _ => rfl
  have hstopped : ∀ scope, C.numbered.stopped (id scope) = C.stopped scope := fun _ => rfl
  exact guarded_map hstopped hturn slot.started slot.task.1 scope

namespace Group

/-- A run of numbered tasks is one of the tasks. -/
theorem numbered_play (C : Conduct σ W) (moves : List Move) (tasks : List σ) (w : W) :
    play C moves (ofTasks tasks) w =
      ((play C.numbered moves (ofTasks tasks.zipIdx) w).1.map Prod.fst,
        (play C.numbered moves (ofTasks tasks.zipIdx) w).2) := by
  have hbare : (ofTasks tasks.zipIdx).map Prod.fst = ofTasks tasks := by
    simp only [map, ofTasks, List.map_map, List.map_nil]
    rw [show Slot.map Prod.fst ∘ (fun task : σ × Nat => (⟨task, false⟩ : Slot (σ × Nat))) =
      (fun task => ⟨task, false⟩) ∘ Prod.fst from rfl, ← List.map_map, List.zipIdx_map_fst]
  rw [← hbare]
  exact play_map C.numbered_mirrors moves (ofTasks tasks.zipIdx) w

end Group

/-! ### Slices -/

/-- What a guarded turn has come to. -/
inductive Fate
  -- The task had not begun, and never will.
  | refused
  -- The task waits, and will go on.
  | paused
  -- The task would have to wait, and never goes on.
  | dropped
  -- The task has come to its own end.
  | ended (result : Except Error Unit)

namespace Fate

/-- How the task ends for the group, if it has. -/
def outcome? : Fate → Option (Except Error Unit)
  | paused => none
  | refused | dropped => some (.error .cancelled)
  | ended result => some result

/-- The failure of the task, if it has failed. -/
def failure? : Fate → Option Error
  | paused | ended (.ok ()) => none
  | refused | dropped => some .cancelled
  | ended (.error error) => some error

theorem outcome?_eq_error_iff {fate : Fate} {error : Error} :
    fate.outcome? = some (.error error) ↔ fate.failure? = some error := by
  rcases fate with _ | _ | _ | cause | _ <;> simp [outcome?, failure?]

end Fate

/-- A turn that a task of a group has had. -/
structure Slice (σ W : Type) where
  -- The number of the task.
  number : Nat
  -- Where the task stood.
  task : σ
  fate : Fate
  before : Scope W
  after : Scope W

/-- The outcome of its task that a turn has led to, with the number of the task. -/
def Slice.outcome? (slice : Slice σ W) : Option (Nat × Except Error Unit) :=
  slice.fate.outcome?.map (slice.number, ·)

/-- A slice is as its fate says. Nothing happens to a task that is refused, which is so because of a
    cancelled token only; every other task does what it does in its turn, and is dropped because of
    a cancelled token only. -/
def Slice.Runs (C : Conduct σ W) (slice : Slice σ W) : Prop :=
  match slice.fate with
  | .refused => slice.after = slice.before ∧ C.stopped slice.before = true
  | .paused => slice.after = (C.resume slice.task slice.before).2 ∧ C.stopped slice.after = false
  | .dropped => slice.after = (C.resume slice.task slice.before).2 ∧ C.stopped slice.after = true
  | .ended result => C.resume slice.task slice.before = (.finished result, slice.after)

namespace Conduct

/-- What a guarded turn comes to. -/
def fate (C : Conduct σ W) (started : Bool) (task : σ) (scope : Scope W) : Fate :=
  if !started && C.stopped scope then .refused
  else
    match C.resume task scope with
    | (.finished result, _) => .ended result
    | (_, after) => if C.stopped after then .dropped else .paused

/-- The turn of a numbered task. -/
def slice (C : Conduct σ W) (slot : Slot (σ × Nat)) (scope : Scope W) : Slice σ W where
  number := slot.task.2
  task := slot.task.1
  fate := C.fate slot.started slot.task.1 scope
  before := scope
  after := (guarded C.stopped C.resume slot.started slot.task.1 scope).2

/-- What a guarded turn is, going by what it comes to. -/
theorem guarded_fate (C : Conduct σ W) (started : Bool) (task : σ) (scope : Scope W) :
    let next := guarded C.stopped C.resume started task scope
    match C.fate started task scope with
    | .refused => next = (.finished (.error .cancelled), scope) ∧ C.stopped scope = true
    | .paused => ((∃ task', next.1 = .yielded task') ∨ ∃ task', next.1 = .asleep task') ∧
      next.2 = (C.resume task scope).2 ∧ C.stopped next.2 = false
    | .dropped => next = (.finished (.error .cancelled), (C.resume task scope).2) ∧
      C.stopped next.2 = true
    | .ended result => next = (.finished result, next.2) ∧
      C.resume task scope = (.finished result, next.2) := by
  simp only [fate, guarded]
  by_cases hrefused : (!started && C.stopped scope) = true
  · simp only [if_pos hrefused]
    exact ⟨trivial, (Bool.and_eq_true_iff.mp hrefused).2⟩
  simp only [if_neg hrefused]
  rcases C.resume task scope with ⟨turn, after⟩
  cases turn with
  | finished result => exact ⟨rfl, rfl⟩
  | yielded task' =>
      by_cases hdropped : C.stopped after = true
      · simp only [if_pos hdropped]
        exact ⟨trivial, hdropped⟩
      · simp only [if_neg hdropped]
        exact ⟨Or.inl ⟨task', rfl⟩, trivial, Bool.eq_false_iff.mpr hdropped⟩
  | asleep task' =>
      by_cases hdropped : C.stopped after = true
      · simp only [if_pos hdropped]
        exact ⟨trivial, hdropped⟩
      · simp only [if_neg hdropped]
        exact ⟨Or.inr ⟨task', rfl⟩, trivial, Bool.eq_false_iff.mpr hdropped⟩

/-- What a slice says about a turn. -/
theorem slice_spec (C : Conduct σ W) (slot : Slot (σ × Nat)) (scope : Scope W) :
    let next := guarded C.numbered.stopped C.numbered.resume slot.started slot.task scope
    let slice := C.slice slot scope
    next.2 = slice.after ∧ next.1.failure? = slice.fate.failure? ∧ slice.Runs C ∧
      ((slice.fate = .paused ∧ ∃ task, next.1.slots = {⟨(task, slice.number), true⟩}) ∨
        (slice.fate ≠ .paused ∧ next.1.slots = 0)) := by
  have hguarded := C.guarded_fate slot.started slot.task.1 scope
  simp only [guarded_numbered, slice, Slice.Runs]
  refine ⟨trivial, ?_⟩
  cases hfate : C.fate slot.started slot.task.1 scope with
  | refused =>
      rw [hfate] at hguarded
      rw [hguarded.1]
      exact ⟨rfl, ⟨rfl, hguarded.2⟩, Or.inr ⟨nofun, rfl⟩⟩
  | paused =>
      rw [hfate] at hguarded
      rcases hguarded with ⟨⟨task, heq⟩ | ⟨task, heq⟩, hafter⟩
      · rw [heq]
        exact ⟨rfl, hafter, Or.inl ⟨rfl, task, rfl⟩⟩
      · rw [heq]
        exact ⟨rfl, hafter, Or.inl ⟨rfl, task, rfl⟩⟩
  | dropped =>
      rw [hfate] at hguarded
      rcases hguarded with ⟨heq, hstopped⟩
      rw [heq] at hstopped ⊢
      exact ⟨rfl, ⟨rfl, hstopped⟩, Or.inr ⟨nofun, rfl⟩⟩
  | ended result =>
      rw [hfate] at hguarded
      rw [hguarded.1]
      cases result <;> exact ⟨rfl, hguarded.2, Or.inr ⟨nofun, rfl⟩⟩

end Conduct

/-! ### Turns in a row -/

namespace Group

/-- The slice of a move, if it gives a task a turn. -/
def slice? (C : Conduct σ W) (move : Move) (g : Group (σ × Nat)) (w : W) : Option (Slice σ W) :=
  match move with
  | .poll place => g.ready[place]?.map (C.slice · ⟨g.tripped, w⟩)
  | _ => none

theorem slice?_eq (C : Conduct σ W) (move : Move) (g : Group (σ × Nat)) (w : W) :
    g.slice? C move w = (g.taken? move).map (C.slice · ⟨g.tripped, w⟩) := by
  cases move <;> rfl

/-- The slices of a list of moves. -/
def slices (C : Conduct σ W) : List Move → Group (σ × Nat) → W → List (Slice σ W)
  | [], _, _ => []
  | move :: moves, g, w => (g.slice? C move w).toList ++
    slices C moves (g.step C.numbered move w).1 (g.step C.numbered move w).2

/-- The turns of tasks that stand or fall together, in their order. -/
def turns (C : Conduct σ W) (tasks : List σ) (moves : List Move) (w : W) : List (Slice σ W) :=
  slices C moves (ofTasks tasks.zipIdx) w

theorem slices_append (C : Conduct σ W) (first rest : List Move) (g : Group (σ × Nat)) (w : W) :
    slices C (first ++ rest) g w = slices C first g w ++
      slices C rest (play C.numbered first g w).1 (play C.numbered first g w).2 := by
  induction first generalizing g w with
  | nil => rfl
  | cons move first ih =>
      rw [List.cons_append, slices, slices, ih, List.append_assoc]
      rfl

section Rule

variable (C : Conduct σ W)
  (Inv : List (Slice σ W) → Multiset (Slot (σ × Nat)) → Option Error → Scope W → Prop)

/-- A fact about the turns so far is kept by one more. -/
def KeptBySlices : Prop := ∀ past slot rest failure scope, Inv past (slot ::ₘ rest) failure scope →
  let next := guarded C.numbered.stopped C.numbered.resume slot.started slot.task scope
  let slice := C.slice slot scope
  Inv (past ++ [slice]) (next.1.slots + rest) (failure.or slice.fate.failure?)
    { slice.after with tripped := slice.after.tripped || slice.fate.failure?.isSome }

variable {C Inv}

/-- To follow turns it is enough to look at one. -/
theorem turns_rule (hslice : KeptBySlices C Inv)
    (hwake : ∀ past, KeptByWaking C.numbered (Inv past))
    (hcancel : ∀ past, KeptByCancelling C.numbered (Inv past)) (moves : List Move)
    {past : List (Slice σ W)} {g : Group (σ × Nat)} {w : W}
    (h : Inv past g.slots g.failure ⟨g.tripped, w⟩) :
    let next := play C.numbered moves g w
    Inv (past ++ slices C moves g w) next.1.slots next.1.failure ⟨next.1.tripped, next.2⟩ := by
  induction moves generalizing past g w with
  | nil =>
      rw [slices, List.append_nil]
      exact h
  | cons move moves ih =>
      have hstep : Inv (past ++ (g.slice? C move w).toList) (g.step C.numbered move w).1.slots
          (g.step C.numbered move w).1.failure
          ⟨(g.step C.numbered move w).1.tripped, (g.step C.numbered move w).2⟩ := by
        cases htaken : g.taken? move with
        | none =>
            rw [slice?_eq, htaken, Option.map_none, Option.toList_none, List.append_nil]
            exact step_of_untaken (hwake past) (fun _ => hcancel past) htaken h
        | some slot =>
            rcases step_of_taken? htaken C.numbered w with
              ⟨rest, hslots, hslots', hfailure, htripped, hworld⟩
            rcases C.slice_spec slot ⟨g.tripped, w⟩ with ⟨hafter, hfate, _⟩
            rw [hslots] at h
            rw [hafter, hfate] at htripped
            rw [hfate] at hfailure
            rw [hafter] at hworld
            rw [slice?_eq, htaken, Option.map_some, Option.toList_some, hslots', hfailure, htripped,
              hworld]
            exact hslice _ _ _ _ _ h
      have hrest := ih hstep
      rw [List.append_assoc] at hrest
      exact hrest

end Rule

end Group

/-! ### Chronicles -/

/-- Between turns nobody acts on the world but the caller, who can put an end to the work, and in a
    turn nobody but the task that has it. -/
inductive Threaded (C : Conduct σ W) (w : W) : List (Slice σ W) → W → Prop
  | start : Threaded C w [] w
  | cancel {past : List (Slice σ W)} {now : W} : Threaded C w past now →
    Threaded C w past (C.cancel now)
  | turn {past : List (Slice σ W)} (slice : Slice σ W) : Threaded C w past slice.before.world →
    slice.Runs C → Threaded C w (past ++ [slice]) slice.after.world

/-- The numbers of the tasks that have had a turn. -/
def begun (past : List (Slice σ W)) : List Nat := past.map (·.number)

/-- What is known of a group from the turns of its tasks so far. -/
structure Chronicle (C : Conduct σ W) (numbers : Multiset Nat) (w : W) (past : List (Slice σ W))
    (slots : Multiset (Slot (σ × Nat))) (failure : Option Error) (scope : Scope W) : Prop where
  -- Each task is done, with an outcome, or still there.
  numbers : ((past.filterMap (·.outcome?)).map (·.1) : Multiset Nat) +
    slots.map (·.task.2) = numbers
  first : failure = past.findSome? (·.fate.failure?)
  tripped : failure ≠ none → scope.tripped = true
  begun : ∀ slot ∈ slots, (slot.started = true ↔ slot.task.2 ∈ begun past)
  threaded : Threaded C w past scope.world

section Chronicle

variable {C : Conduct σ W} {numbers : Multiset Nat} {w : W}

theorem Slice.Runs.tripped {slice : Slice σ W} (hruns : slice.Runs C) (h : C.Lasting)
    (htripped : slice.before.tripped = true) : slice.after.tripped = true := by
  have hresume := h.tripped slice.task slice.before htripped
  unfold Slice.Runs at hruns
  cases hfate : slice.fate with
  | refused =>
      rw [hfate] at hruns
      rw [hruns.1]
      exact htripped
  | ended result =>
      rw [hfate] at hruns
      rw [show C.resume slice.task slice.before = _ from hruns] at hresume
      exact hresume
  | _ =>
      rw [hfate] at hruns
      rw [hruns.1]
      exact hresume

theorem Threaded.runs {past : List (Slice σ W)} {now : W} (h : Threaded C w past now) :
    ∀ slice ∈ past, slice.Runs C := by
  induction h with
  | start => exact fun _ hslice => absurd hslice List.not_mem_nil
  | cancel _ ih => exact ih
  | turn slice _ hruns ih =>
      intro other hother
      rcases List.mem_append.mp hother with hother | hother
      · exact ih other hother
      · rw [List.mem_singleton.mp hother]
        exact hruns

/-- A turn that is not the last one leads to no outcome. -/
theorem outcomes_concat (past : List (Slice σ W)) (slice : Slice σ W) :
    (((past ++ [slice]).filterMap (·.outcome?)).map (·.1) : Multiset Nat) =
      (past.filterMap (·.outcome?)).map (·.1) + match slice.fate with
        | .paused => 0
        | _ => {slice.number} := by
  rw [List.filterMap_append, List.map_append, ← Multiset.coe_add]
  congr 1
  rcases slice with ⟨number, task, fate, before, after⟩
  cases fate <;> rfl

/-- One more turn keeps the chronicle. -/
theorem chronicle_keptBySlices (h : C.Lasting) (hnodup : numbers.Nodup) :
    Group.KeptBySlices C (Chronicle C numbers w) := by
  intro past slot rest failure scope hchronicle next slice
  rcases C.slice_spec slot scope with ⟨_, _, hruns, hslots⟩
  have hnumbers := hchronicle.numbers
  rw [Multiset.map_cons] at hnumbers
  refine ⟨?_, ?_, ?_, ?_, hchronicle.threaded.turn slice hruns⟩
  · rw [outcomes_concat, Multiset.map_add, ← hnumbers, add_assoc]
    refine congrArg _ ?_
    rw [← Multiset.singleton_add, ← add_assoc]
    refine congrArg (· + rest.map (·.task.2)) ?_
    rcases hslots with ⟨hpaused, task, hslots⟩ | ⟨hover, hslots⟩
    · rw [hslots, show slice.fate = _ from hpaused]
      rfl
    · rw [hslots]
      cases hfate : slice.fate with
      | paused => exact absurd hfate hover
      | _ => rfl
  · rw [List.findSome?_append, ← hchronicle.first]
    simp only [List.findSome?_cons, List.findSome?_nil]
    cases slice.fate.failure? <;> rfl
  · intro hfailed
    refine Bool.or_eq_true_iff.mpr ?_
    cases hfailure : failure with
    | none =>
        rw [hfailure, Option.none_or] at hfailed
        exact Or.inr (Option.isSome_iff_ne_none.mpr hfailed)
    | some error =>
        refine Or.inl (hruns.tripped h (hchronicle.tripped ?_))
        rw [hfailure]
        exact Option.some_ne_none error
  · intro slot' hslot'
    rw [begun, List.map_append, List.mem_append]
    rcases Multiset.mem_add.mp hslot' with hslot' | hslot'
    · rcases hslots with ⟨_, task, hslots⟩ | ⟨_, hslots⟩
      · rw [show next.1.slots = _ from hslots, Multiset.mem_singleton] at hslot'
        rw [hslot']
        exact ⟨fun _ => Or.inr List.mem_cons_self, fun _ => rfl⟩
      · rw [show next.1.slots = _ from hslots] at hslot'
        exact absurd hslot' (Multiset.notMem_zero _)
    · -- Numbers are distinct, so the turn was not of this task.
      rw [← hnumbers, Multiset.nodup_add, Multiset.nodup_cons] at hnodup
      have hother : slot'.task.2 ≠ slice.number := by
        intro heq
        have hmem := Multiset.mem_map_of_mem (·.task.2) hslot'
        rw [heq] at hmem
        exact hnodup.2.1.1 hmem
      rw [hchronicle.begun slot' (Multiset.mem_cons_of_mem hslot')]
      refine ⟨Or.inl, fun hmem => hmem.resolve_right fun hmem => ?_⟩
      exact hother (List.mem_singleton.mp hmem)

/-- The arrival of what a task waits for keeps the chronicle. -/
theorem chronicle_keptByWaking (past : List (Slice σ W)) :
    Group.KeptByWaking C.numbered (Chronicle C numbers w past) := by
  intro slot rest failure scope h
  have hnumbers := h.numbers
  rw [Multiset.map_cons] at hnumbers
  refine ⟨?_, h.first, h.tripped, ?_, h.threaded⟩
  · rw [Multiset.map_cons]
    exact hnumbers
  · intro slot' hslot'
    rcases Multiset.mem_cons.mp hslot' with rfl | hslot'
    · exact h.begun slot (Multiset.mem_cons_self _ _)
    · exact h.begun slot' (Multiset.mem_cons_of_mem hslot')

/-- The chronicle of tasks that have not begun. -/
theorem chronicle_ofTasks (C : Conduct σ W) (tasks : List σ) (w : W) :
    Chronicle C ↑(List.range tasks.length) w [] (Group.ofTasks tasks.zipIdx).slots none
      ⟨false, w⟩ := by
  rw [Group.slots_ofTasks]
  refine ⟨?_, rfl, fun hfailed => absurd rfl hfailed, ?_, .start⟩
  · rw [Multiset.map_map, Multiset.map_coe, List.filterMap_nil, List.map_nil, Multiset.coe_nil,
      zero_add, List.range_eq_range', ← List.zipIdx_map_snd]
    rfl
  · intro slot hslot
    rcases Multiset.mem_map.mp hslot with ⟨task, _, rfl⟩
    exact ⟨nofun, nofun⟩

/-- The chronicle of any moves. -/
theorem chronicle_play (h : C.Lasting) (tasks : List σ) (moves : List Move) (w : W) :
    let next := Group.play C.numbered moves (.ofTasks tasks.zipIdx) w
    Chronicle C ↑(List.range tasks.length) w (Group.turns C tasks moves w) next.1.slots
      next.1.failure ⟨next.1.tripped, next.2⟩ := by
  have hnodup : (List.range tasks.length : Multiset Nat).Nodup :=
    Multiset.coe_nodup.mpr List.nodup_range
  exact Group.turns_rule (chronicle_keptBySlices h hnodup) chronicle_keptByWaking
    (fun _ _ _ _ hcancel => ⟨hcancel.numbers, hcancel.first, hcancel.tripped, hcancel.begun,
      hcancel.threaded.cancel⟩) moves (chronicle_ofTasks C tasks w)

end Chronicle

end Fleet
