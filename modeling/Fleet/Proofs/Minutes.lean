import Fleet.Proofs.FirstFailure
import Fleet.Proofs.Throughout
import Mathlib.Tactic.Abel

/-!
# The minutes of a pass

Of its operations a pass shows lines of progress and a flag, and neither says which operation
it comes from: two containers that are created make the same lines. So the turns of the
operations are put down one by one. A `Bout` is a turn with the job that had it and what it
came to, and what a turn says, or does to the flag, can be read off it. An operation says
that it begins in its first turn and how it ended in its last one, unless it was dropped.

The minutes (`Minutes`) hold the turns so far against the operations of the plan, the channel
and the flag. The entry that matters is a balance: each operation that has begun is done, has
failed, was dropped or is under way. It is an equation between multisets of operations, since
whatever is to be counted, of all kinds or of one, can then be counted on both sides.

What becomes of the answer to the listing is left open (`Pass.Remembers`). A statement about
the plan has to know which containers were listed, and a statement about the flag does not.

## Main definitions

* `Job.Turned`: What a guarded turn of an operation can be.
* `Bout`, `Pass.bouts`: A turn of an operation, and those of a pass in their order.
* `Bout.events`: What is said in a turn.
* `Balanced`, `Minutes`: What is known of operations from their turns.
* `Pass.Told`: What is known of a pass from the turns of its operations.

## Theorems

* `Job.turned_guarded`: Every guarded turn is one of those.
* `Minutes.concat`: One more turn keeps the minutes.
* `Pass.bouts_rule`: To follow the turns of operations it is enough to look at one move.
* `Pass.told_play`: After any moves it is known what the operations have said.
-/

namespace Fleet

variable {ρ : Type}

/-! ### Turns of operations -/

theorem Errand.Bears.imp {α : Type} {P Q : Except RuntimeError α → Prop} {errand : Errand α}
    (h : errand.Bears P) (himp : ∀ answer, P answer → Q answer) : errand.Bears Q := by
  cases errand with
  | awaiting answer arrived => exact himp answer h
  | _ => exact trivial

namespace Stand

/-- The operation has begun. -/
def begun : Stand → Bool
  | fresh => false
  | underway .. => true

/-- An operation that waits at the end of a turn has begun. -/
def LeavesBegun : Turn Stand (Except RuntimeError Unit) → Prop
  | .yielded stand | .asleep stand => stand.begun = true
  | .finished _ => True

theorem leavesBegun_of_comesTo {A : String → List Step → ρ → Prop}
    {B : RuntimeError → String → List Step → ρ → Prop}
    {result : Turn Stand (Except RuntimeError Unit) × ρ} (h : ComesTo A B result) :
    LeavesBegun result.1 := by
  have hshows : ∀ {stand : Stand} {w : ρ}, Shows A B stand w → stand.begun = true := by
    intro stand w hshows
    cases stand with
    | fresh => exact hshows.elim
    | underway created q errand rest => rfl
  rcases result with ⟨turn, w⟩
  cases turn with
  | finished answer => exact trivial
  | _ => exact hshows h

theorem advances_trivially (E : Engine ρ) :
    Advances E (fun _ _ _ => True) fun _ _ _ _ => True :=
  fun _ _ _ _ _ => ⟨fun _ _ => trivial, fun _ _ => trivial⟩

theorem takeSteps_leavesBegun (E : Engine ρ) (created : String) (steps : List Step) (w : ρ) :
    LeavesBegun (takeSteps E created steps w).1 :=
  leavesBegun_of_comesTo (takeSteps_comesTo (advances_trivially E) trivial)

theorem takeOn_leavesBegun (E : Engine ρ) (created : String) (q : Request)
    (errand : Errand q.Answer) (rest : List Step) (w : ρ) :
    LeavesBegun (takeOn E created q errand rest w).1 := by
  refine leavesBegun_of_comesTo (takeOn_comesTo (advances_trivially E) ?_)
  cases errand with
  | awaiting answer arrived =>
      cases answer with
      | ok answer => exact trivial
      | error cause => exact ⟨.fixed q, rfl, trivial⟩
  | _ => exact ⟨.fixed q, rfl, trivial⟩

end Stand

namespace Job

/-- An operation says that it begins, if it has not begun. -/
def opened (job : Job) (s : Site ρ) : Site ρ :=
  if job.stand.begun then s
  else s.report (job.operation.event .working job.operation.kind.beginning)

/-- What a guarded turn of an operation can be: its fate, the turn, and the site after it. -/
inductive Turned (job : Job) (s : Site ρ) :
    Fate → Turn Job (Except Error Unit) → Site ρ → Prop
  -- It has not begun, and never will.
  | refused : job.stand.begun = false →
    Turned job s .refused (.finished (.error .cancelled)) s
  -- It has not begun, and cannot for want of a number.
  | barred (cause : NumberError) : job.stand.begun = false →
    Turned job s (.ended (.error (.number cause))) (.finished (.error (.number cause))) s
  | yielded (stand : Stand) (w : ρ) : stand.begun = true →
    Turned job s .paused (.yielded ⟨job.operation, stand⟩) { job.opened s with world := w }
  | asleep (stand : Stand) (w : ρ) : stand.begun = true →
    Turned job s .paused (.asleep ⟨job.operation, stand⟩) { job.opened s with world := w }
  | dropped (w : ρ) :
    Turned job s .dropped (.finished (.error .cancelled)) { job.opened s with world := w }
  | done (w : ρ) : Turned job s (.ended (.ok ())) (.finished (.ok ()))
    ({ job.opened s with world := w }.complete job.operation)
  | failed (cause : RuntimeError) (w : ρ) :
    Turned job s (.ended (.error (.runtime cause))) (.finished (.error (.runtime cause)))
      ({ job.opened s with world := w }.fail job.operation)

/-- A turn of an operation takes it to its steps, unless its number is missing. -/
theorem resume_cases (E : Engine ρ) (job : Job) (s : Site ρ) :
    (job.stand.begun = false ∧
      ∃ cause, job.resume E s = (.finished (.error (.number cause)), s)) ∨
    ∃ turn w, Stand.LeavesBegun turn ∧
      job.resume E s = conclude job.operation (job.opened s) (turn, w) := by
  rcases job with ⟨op, stand⟩
  cases stand with
  | fresh =>
      simp only [resume]
      cases op.steps with
      | error cause => exact Or.inl ⟨rfl, cause, rfl⟩
      | ok steps => exact Or.inr ⟨_, _, Stand.takeSteps_leavesBegun E "" steps s.world, rfl⟩
  | underway created q errand rest =>
      exact Or.inr ⟨_, _, Stand.takeOn_leavesBegun E created q errand rest s.world, rfl⟩

/-- Every guarded turn is one of those. -/
theorem turned_guarded (E : Engine ρ) {slot : Slot Job}
    (hfresh : slot.started = false → slot.task.stand.begun = false) (scope : Scope (Site ρ)) :
    let next := guarded (conduct E).stopped (conduct E).resume slot.started slot.task scope
    Turned slot.task scope.world ((conduct E).fate slot.started slot.task scope) next.1
      next.2.world := by
  have hresume : (conduct E).resume slot.task scope =
      ((slot.task.resume E scope.world).1,
        { scope with world := (slot.task.resume E scope.world).2 }) := rfl
  simp only [Conduct.fate, guarded, hresume]
  by_cases hrefused : (!slot.started && (conduct E).stopped scope) = true
  · simp only [if_pos hrefused]
    exact .refused (hfresh (by simpa using (Bool.and_eq_true_iff.mp hrefused).1))
  simp only [if_neg hrefused]
  rcases resume_cases E slot.task scope.world with ⟨hbegun, cause, heq⟩ | ⟨turn, w, hleaves, heq⟩
  · simp only [heq]
    exact .barred cause hbegun
  simp only [heq]
  cases turn with
  | yielded stand =>
      simp only [conclude]
      split
      · exact .dropped w
      · exact .yielded stand w hleaves
  | asleep stand =>
      simp only [conclude]
      split
      · exact .dropped w
      · exact .asleep stand w hleaves
  | finished result =>
      cases result with
      | ok => exact .done w
      | error cause => exact .failed cause w

end Job

/-! ### Bouts -/

/-- A turn that an operation of a pass has had. -/
structure Bout where
  -- Where the operation stood.
  job : Job
  fate : Fate

namespace Bout

/-- The operation, if it has begun in this turn. -/
def begun? (bout : Bout) : Option Operation :=
  match bout.fate with
  | .refused | .ended (.error (.number _)) => none
  | _ => if bout.job.stand.begun then none else some bout.job.operation

/-- The operation, if it is done. -/
def done? (bout : Bout) : Option Operation :=
  match bout.fate with
  | .ended (.ok ()) => some bout.job.operation
  | _ => none

/-- The operation, if a request of it has failed. -/
def failed? (bout : Bout) : Option Operation :=
  match bout.fate with
  | .ended (.error (.runtime _)) => some bout.job.operation
  | _ => none

/-- The operation, if it had begun and was dropped. -/
def dropped? (bout : Bout) : Option Operation :=
  match bout.fate with
  | .dropped => some bout.job.operation
  | _ => none

/-- The operation, if it has no further turn. -/
def over? (bout : Bout) : Option Operation :=
  match bout.fate with
  | .paused => none
  | _ => some bout.job.operation

/-- What is said in a turn. -/
def events (bout : Bout) : List Event :=
  bout.begun?.toList.map (fun op => op.event .working op.kind.beginning) ++
    bout.done?.toList.map (fun op => op.event .done op.kind.ending) ++
    bout.failed?.toList.map (·.event .failed "Error")

/-- A replacement is done. -/
def Replaces (bout : Bout) : Prop :=
  bout.fate = .ended (.ok ()) ∧ bout.job.operation.kind = .recreate

end Bout

/-- The operation, if it has begun. -/
def Job.underway? (job : Job) : Option Operation :=
  if job.stand.begun then some job.operation else none

/-- The operations that are under way. -/
def underway (slots : Multiset (Slot Job)) : Multiset Operation :=
  slots.bind fun slot => (slot.task.underway?.toList : Multiset Operation)

namespace Job.Turned

variable {job : Job} {s s' : Site ρ} {fate : Fate} {turn : Turn Job (Except Error Unit)}

/-- What is said in a turn is what the bout says. -/
theorem channel (h : Turned job s fate turn s') :
    s'.channel = (Bout.mk job fate).events.foldl Channel.send s.channel := by
  have hopened : (job.opened s).channel = ((if job.stand.begun then none else
      some job.operation).toList.map fun op => op.event .working op.kind.beginning).foldl
        Channel.send s.channel := by
    unfold opened
    cases job.stand.begun <;> rfl
  cases h with
  | refused _ => rfl
  | barred cause _ => rfl
  | done w =>
      have hcomplete : ({ job.opened s with world := w }.complete job.operation).channel =
          (job.opened s).channel.send (job.operation.event .done job.operation.kind.ending) := by
        simp only [Site.complete]
        split <;> rfl
      rw [hcomplete, hopened, Bout.events, List.foldl_append, List.foldl_append]
      rfl
  | failed cause w =>
      have hfail : ({ job.opened s with world := w }.fail job.operation).channel =
          (job.opened s).channel.send (job.operation.event .failed "Error") := rfl
      rw [hfail, hopened, Bout.events, List.foldl_append, List.foldl_append]
      rfl
  | _ =>
      rw [Bout.events, List.foldl_append, List.foldl_append]
      exact hopened

/-- The flag is raised by a replacement that is done, and by nothing else. -/
theorem recreated (h : Turned job s fate turn s') :
    s'.recreated = true ↔ s.recreated = true ∨ (Bout.mk job fate).Replaces := by
  have hopened : (job.opened s).recreated = s.recreated := by
    unfold opened
    cases job.stand.begun <;> rfl
  have hundone : fate ≠ .ended (.ok ()) →
      (s.recreated = true ↔ s.recreated = true ∨ (Bout.mk job fate).Replaces) :=
    fun hne => ⟨Or.inl, fun h => h.resolve_right fun hreplaces => hne hreplaces.1⟩
  cases h with
  | refused _ => exact hundone (by rintro ⟨⟩)
  | barred cause _ => exact hundone (by rintro ⟨⟩)
  | done w =>
      simp only [Site.complete]
      by_cases hkind : job.operation.kind = .recreate
      · rw [if_pos hkind]
        exact ⟨fun _ => Or.inr ⟨rfl, hkind⟩, fun _ => rfl⟩
      · rw [if_neg hkind, ← hopened]
        exact ⟨Or.inl, fun h => h.resolve_right fun hreplaces => hkind hreplaces.2⟩
  | _ =>
      rw [← hopened] at hundone ⊢
      exact hundone (by rintro ⟨⟩)

/-- An operation that has begun is done, has failed, was dropped, or is under way. -/
theorem balance (h : Turned job s fate turn s') :
    ((Bout.mk job fate).begun?.toList : Multiset Operation) + job.underway?.toList =
      (Bout.mk job fate).done?.toList + (Bout.mk job fate).failed?.toList +
        (Bout.mk job fate).dropped?.toList + underway turn.slots := by
  have hnow : ((if job.stand.begun then none else some job.operation).toList :
      Multiset Operation) + job.underway?.toList = {job.operation} := by
    unfold underway?
    cases job.stand.begun <;> rfl
  have hlater : ∀ stand : Stand, stand.begun = true →
      underway {⟨⟨job.operation, stand⟩, true⟩} = {job.operation} := by
    intro stand hbegun
    rw [underway, Multiset.singleton_bind, underway?, if_pos hbegun]
    rfl
  cases h with
  | refused hbegun =>
      rw [underway?, hbegun]
      rfl
  | barred cause hbegun =>
      rw [underway?, hbegun]
      rfl
  | yielded stand w hbegun => exact hnow.trans (hlater stand hbegun).symm
  | asleep stand w hbegun => exact hnow.trans (hlater stand hbegun).symm
  | _ => exact hnow

/-- An operation has no further turn, or waits for one. -/
theorem finished (h : Turned job s fate turn s') :
    ((Bout.mk job fate).over?.toList : Multiset Operation) +
      turn.slots.map (·.task.operation) = {job.operation} := by
  cases h <;> rfl

theorem failure? (h : Turned job s fate turn s') : turn.failure? = fate.failure? := by
  cases h <;> rfl

theorem started (h : Turned job s fate turn s') : ∀ slot ∈ turn.slots, slot.started = true := by
  intro slot hslot
  cases h with
  | yielded stand w _ =>
      rw [Multiset.mem_singleton.mp hslot]
  | asleep stand w _ =>
      rw [Multiset.mem_singleton.mp hslot]
  | _ => exact absurd hslot (Multiset.notMem_zero _)

end Job.Turned

/-! ### Minutes -/

theorem coe_filterMap_concat {α β : Type} (f : α → Option β) (l : List α) (a : α) :
    ((l ++ [a]).filterMap f : Multiset β) = l.filterMap f + (f a).toList := by
  rw [List.filterMap_append, ← Multiset.coe_add]
  congr 1

/-- Each operation that has begun is done, has failed, was dropped, or is under way. -/
def Balanced (past : List Bout) (live : Multiset Operation) : Prop :=
  (past.filterMap Bout.begun? : Multiset Operation) =
    past.filterMap Bout.done? + past.filterMap Bout.failed? + past.filterMap Bout.dropped? + live

/-- One more turn keeps the balance if it is balanced itself. -/
theorem Balanced.concat {past : List Bout} {bout : Bout} {live live' others : Multiset Operation}
    (h : Balanced past (live + others))
    (hbout : (bout.begun?.toList : Multiset Operation) + live = bout.done?.toList +
      bout.failed?.toList + bout.dropped?.toList + live') :
    Balanced (past ++ [bout]) (live' + others) := by
  unfold Balanced at h ⊢
  simp only [coe_filterMap_concat]
  rw [h, add_assoc, add_right_comm live, add_comm live, hbout]
  abel

/-- No more operations are done than have begun. -/
theorem Balanced.done_le {past : List Bout} {live : Multiset Operation} (h : Balanced past live) :
    (past.filterMap Bout.done? : Multiset Operation) ≤ past.filterMap Bout.begun? := by
  rw [h, add_assoc, add_assoc]
  exact Multiset.le_add_right _ _

/-- What is known of operations from the turns that they have had, where a channel and a flag were
    found as given. -/
structure Minutes (operations : Multiset Operation) (before : Site ρ) (past : List Bout)
    (slots : Multiset (Slot Job)) (failure : Option Error) (site : Site ρ) : Prop where
  -- Each operation has had its last turn, or is still there.
  finished : (past.filterMap Bout.over? : Multiset Operation) + slots.map (·.task.operation) =
    operations
  known : ∀ bout ∈ past, bout.job.operation ∈ operations
  balance : Balanced past (underway slots)
  -- At no moment more were done than had begun.
  orderly : ∀ first, first <+: past →
    (first.filterMap Bout.done? : Multiset Operation) ≤ first.filterMap Bout.begun?
  fresh : ∀ slot ∈ slots, slot.started = false → slot.task.stand.begun = false
  channel : site.channel = (past.flatMap Bout.events).foldl Channel.send before.channel
  recreated : site.recreated = true ↔ before.recreated = true ∨ ∃ bout ∈ past, bout.Replaces
  failure : failure = none → ∀ bout ∈ past, bout.fate.failure? = none

section Minutes

variable {operations : Multiset Operation} {before site site' : Site ρ} {past : List Bout}
  {slots rest : Multiset (Slot Job)} {slot : Slot Job} {failure : Option Error} {fate : Fate}
  {turn : Turn Job (Except Error Unit)}

/-- The minutes of operations that have not begun. -/
theorem minutes_ofTasks (operations : List Operation) (hchannel : site.channel = before.channel)
    (hrecreated : site.recreated = before.recreated) :
    Minutes operations before [] (Group.ofTasks (operations.map Job.fresh)).slots none site := by
  rw [Group.slots_ofTasks, Multiset.map_coe, List.map_map]
  refine ⟨?_, fun _ hbout => absurd hbout List.not_mem_nil, ?_, ?_, ?_, hchannel, ?_,
    fun _ _ hbout => absurd hbout List.not_mem_nil⟩
  · rw [List.filterMap_nil, Multiset.coe_nil, zero_add, Multiset.map_coe, List.map_map]
    exact congrArg _ (List.map_id operations)
  · have hnone : underway (operations.map ((⟨·, false⟩ : Job → Slot Job) ∘ Job.fresh)) = 0 := by
      refine Multiset.eq_zero_of_forall_notMem fun op hop => ?_
      rcases Multiset.mem_bind.mp hop with ⟨slot, hslot, hop⟩
      rcases List.mem_map.mp (Multiset.mem_coe.mp hslot) with ⟨op', _, rfl⟩
      exact absurd hop (Multiset.notMem_zero op)
    rw [hnone]
    rfl
  · intro first hfirst
    rw [List.prefix_nil.mp hfirst]
    exact le_refl _
  · intro slot hslot _
    rcases List.mem_map.mp (Multiset.mem_coe.mp hslot) with ⟨op, _, rfl⟩
    rfl
  · rw [hrecreated]
    exact ⟨Or.inl, fun h => h.resolve_right fun ⟨_, hmem, _⟩ => List.not_mem_nil hmem⟩

namespace Minutes

/-- One more turn keeps the minutes. -/
theorem concat (h : Minutes operations before past (slot ::ₘ rest) failure site)
    (hturned : Job.Turned slot.task site fate turn site') :
    Minutes operations before (past ++ [⟨slot.task, fate⟩]) (turn.slots + rest)
      (failure.or turn.failure?) site' := by
  have hover := h.finished
  have hbefore := h.balance
  rw [Multiset.map_cons] at hover
  rw [underway, Multiset.cons_bind] at hbefore
  have hbalance : Balanced (past ++ [⟨slot.task, fate⟩]) (underway (turn.slots + rest)) := by
    rw [underway, Multiset.add_bind]
    exact hbefore.concat hturned.balance
  refine ⟨?_, ?_, hbalance, ?_, ?_, ?_, ?_, ?_⟩
  · rw [coe_filterMap_concat, Multiset.map_add, ← hover, ← Multiset.singleton_add,
      ← hturned.finished]
    abel
  · intro bout hbout
    rcases List.mem_append.mp hbout with hbout | hbout
    · exact h.known bout hbout
    · rw [List.mem_singleton.mp hbout, ← hover]
      exact Multiset.mem_add.mpr (Or.inr (Multiset.mem_cons_self _ _))
  · intro first hfirst
    rcases List.prefix_concat_iff.mp hfirst with rfl | hfirst
    · exact hbalance.done_le
    · exact h.orderly first hfirst
  · intro slot' hslot' hstarted
    rcases Multiset.mem_add.mp hslot' with hslot' | hslot'
    · rw [hturned.started slot' hslot'] at hstarted
      cases hstarted
    · exact h.fresh slot' (Multiset.mem_cons_of_mem hslot') hstarted
  · rw [hturned.channel, h.channel, List.flatMap_append, List.foldl_append, List.flatMap_singleton]
  · rw [hturned.recreated, h.recreated, or_assoc]
    refine or_congr_right ⟨?_, ?_⟩
    · rintro (⟨bout, hbout, hreplaces⟩ | hreplaces)
      · exact ⟨bout, List.mem_append_left _ hbout, hreplaces⟩
      · exact ⟨_, List.mem_append_right _ (List.mem_singleton_self _), hreplaces⟩
    · rintro ⟨bout, hbout, hreplaces⟩
      rcases List.mem_append.mp hbout with hbout | hbout
      · exact Or.inl ⟨bout, hbout, hreplaces⟩
      · rw [List.mem_singleton.mp hbout] at hreplaces
        exact Or.inr hreplaces
  · intro hnone bout hbout
    rw [Option.or_eq_none_iff] at hnone
    rcases List.mem_append.mp hbout with hbout | hbout
    · exact h.failure hnone.1 bout hbout
    · rw [List.mem_singleton.mp hbout, ← hturned.failure?]
      exact hnone.2

/-- Nothing is put down of the world. -/
theorem elsewhere (h : Minutes operations before past slots failure site) (w : ρ) :
    Minutes operations before past slots failure { site with world := w } :=
  ⟨h.finished, h.known, h.balance, h.orderly, h.fresh, h.channel, h.recreated, h.failure⟩

theorem keptByWaking (E : Engine ρ) : Group.KeptByWaking (Job.conduct E)
    fun slots failure scope => Minutes operations before past slots failure scope.world := by
  intro slot rest failure scope h
  have hstand : slot.task.stand.wake.begun = slot.task.stand.begun := by
    cases slot.task.stand <;> rfl
  have hbalance := h.balance
  rw [underway, Multiset.cons_bind] at hbalance
  refine ⟨?_, h.known, ?_, h.orderly, ?_, h.channel, h.recreated, h.failure⟩
  · rw [← h.finished, Multiset.map_cons, Multiset.map_cons]
    rfl
  · rw [underway, Multiset.cons_bind]
    simp only [Job.underway?, Job.conduct, Job.wake, hstand]
    exact hbalance
  · intro slot' hslot' hstarted
    rcases Multiset.mem_cons.mp hslot' with rfl | hslot'
    · exact hstand.trans (h.fresh slot (Multiset.mem_cons_self _ _) hstarted)
    · exact h.fresh slot' (Multiset.mem_cons_of_mem hslot') hstarted

theorem keptByCancelling (E : Engine ρ) : Group.KeptByCancelling (Job.conduct E)
    fun slots failure scope => Minutes operations before past slots failure scope.world :=
  fun _ _ _ h => h.elsewhere _

end Minutes

end Minutes

/-! ### Passes -/

namespace Pass

/-- The turn of an operation that a move brings, if it brings one. -/
def bout? (E : Engine ρ) (move : Move) (pass : Pass) (site : Site ρ) : Option Bout :=
  match pass.stage with
  | .working jobs => (jobs.taken? move).map fun slot =>
    ⟨slot.task, (Job.conduct E).fate slot.started slot.task ⟨jobs.tripped, site⟩⟩
  | _ => none

/-- The turns of the operations of a pass, in their order. -/
def bouts (E : Engine ρ) : List Move → Pass → Site ρ → List Bout
  | [], _, _ => []
  | move :: moves, pass, site => (bout? E move pass site).toList ++
    bouts E moves (pass.step E move site).1 (pass.step E move site).2

/-- To follow the turns of operations it is enough to look at one move. -/
theorem bouts_rule (E : Engine ρ) (pass : Pass) {Inv : List Bout → Stage → Site ρ → Prop}
    (hstep : ∀ move past stage site, Inv past stage site →
      let next := Pass.step E move { pass with stage } site
      Inv (past ++ (bout? E move { pass with stage } site).toList) next.1.stage next.2)
    (moves : List Move) {past : List Bout} {stage : Stage} {site : Site ρ}
    (h : Inv past stage site) :
    let next := play E moves { pass with stage } site
    Inv (past ++ bouts E moves { pass with stage } site) next.1.stage next.2 := by
  induction moves generalizing past stage site with
  | nil =>
      rw [bouts, List.append_nil]
      exact h
  | cons move moves ih =>
      have hrest := ih (hstep move past stage site h)
      rw [List.append_assoc] at hrest
      have hfields : (Pass.step E move { pass with stage } site).1 =
        { pass with stage := (Pass.step E move { pass with stage } site).1.stage } :=
          step_fields E move { pass with stage } site
      rw [← hfields] at hrest
      exact hrest

/-- What a pass has been told of its containers is remembered, whatever else happens. -/
structure Remembers (E : Engine ρ) (filter : LabelFilter)
    (Heard : Except RuntimeError (List Summary) → ρ → Prop) : Prop where
  kept : ∀ answer, KeptByCalls E (Heard answer)
  cancel : ∀ answer w, Heard answer w → Heard answer (E.cancel w)
  listed : ∀ w, Heard (E.call (.list filter) w).1 (E.call (.list filter) w).2

variable {Heard : Except RuntimeError (List Summary) → ρ → Prop}

/-- Nothing has been said. -/
structure Silent (before : Site ρ) (past : List Bout) (site : Site ρ) : Prop where
  past : past = []
  channel : site.channel = before.channel
  recreated : site.recreated = before.recreated

/-- The minutes of the operations that a pass has planned. -/
def Kept (Heard : Except RuntimeError (List Summary) → ρ → Prop) (pass : Pass) (before : Site ρ)
    (past : List Bout) (slots : Multiset (Slot Job)) (failure : Option Error) (site : Site ρ) :
    Prop :=
  ∃ listing operations, Heard (.ok listing) site.world ∧
    pass.operations listing = .ok operations ∧
    Minutes operations before past slots failure site

/-- What is known of a pass from the turns of its operations. -/
def Told (Heard : Except RuntimeError (List Summary) → ρ → Prop) (pass : Pass) (before : Site ρ)
    (past : List Bout) (stage : Stage) (site : Site ρ) : Prop :=
  match stage with
  | .gating _ => Silent before past site
  | .listing _ _ errand => Silent before past site ∧ errand.Bears (Heard · site.world)
  | .working jobs => Kept Heard pass before past jobs.slots jobs.failure site
  | .ended result => (Silent before past site ∧ ∃ error, result = .error error) ∨
    ∃ failure, Kept Heard pass before past 0 failure site ∧ (result = .ok () → failure = none)

variable {E : Engine ρ} {pass : Pass} {before site : Site ρ} {past : List Bout}

theorem afterGates_told (gates : Group Gate.Watch) (h : Silent before past site) :
    Told Heard pass before past (afterGates gates) site := by
  unfold afterGates
  cases gates.isOver with
  | false => exact h
  | true =>
      cases gates.outcome with
      | ok => exact ⟨h, trivial⟩
      | error error => exact Or.inl ⟨h, error, rfl⟩

theorem afterJobs_told {jobs : Group Job}
    (h : Kept Heard pass before past jobs.slots jobs.failure site) :
    Told Heard pass before past (afterJobs jobs) site := by
  unfold afterJobs
  cases hover : jobs.isOver with
  | false => exact h
  | true =>
      rw [(Group.slots_eq_zero_iff jobs).mpr hover] at h
      exact Or.inr ⟨jobs.failure, h, (Group.outcome_eq_ok_iff jobs).mp⟩

theorem afterListing_told {listing : List Summary} (hsilent : Silent before past site)
    (hheard : Heard (.ok listing) site.world) :
    Told Heard pass before past (pass.afterListing listing) site := by
  unfold afterListing
  cases hoperations : pass.operations listing with
  | error cause => exact Or.inl ⟨hsilent, _, rfl⟩
  | ok operations =>
      rw [hsilent.past]
      exact afterJobs_told ⟨listing, operations, hheard, hoperations,
        minutes_ofTasks operations hsilent.channel hsilent.recreated⟩

theorem takeListing_told (hremembers : Remembers E pass.filter Heard) (started : Bool)
    {errand : Errand (List Summary)} (hsilent : Silent before past site)
    (hbears : errand.Bears (Heard · site.world)) :
    let next := pass.takeListing E started errand site.world
    Told Heard pass before past next.1 { site with world := next.2 } := by
  have hbrings := Errand.brings_of_call hremembers.listed hbears
  have hsilent' : ∀ w, Silent before past { site with world := w } :=
    fun _ => ⟨hsilent.past, hsilent.channel, hsilent.recreated⟩
  rw [takeListing_eq]
  rcases Group.guarded_cases E.cancelled (listingTurn E pass) started errand
    site.world with heq | ⟨heq, _⟩ | ⟨heq, _⟩
  · rw [heq, listingTurn]
    rcases hresult : Errand.resume E (.list pass.filter) errand site.world with ⟨turn, w⟩
    rw [hresult] at hbrings
    cases turn with
    | yielded errand' => exact ⟨hsilent' w, hbrings⟩
    | asleep errand' => exact ⟨hsilent' w, hbrings⟩
    | finished answer =>
        cases answer with
        | error cause => exact Or.inl ⟨hsilent' w, _, rfl⟩
        | ok listing => exact afterListing_told (hsilent' w) hbrings
  · rw [heq]
    exact Or.inl ⟨hsilent' _, _, rfl⟩
  · rw [heq]
    exact Or.inl ⟨hsilent' _, _, rfl⟩

/-- What is heard of the containers stays so while operations are carried out. -/
theorem heard_step (hremembers : Remembers E pass.filter Heard) (move : Move) {jobs : Group Job}
    {answer : Except RuntimeError (List Summary)} (h : Heard answer site.world) :
    Heard answer (jobs.step (Job.conduct E) move site).2.world := by
  have hkept : Heard answer (Pass.step E move { pass with stage := .working jobs } site).2.world :=
    step_kept (hremembers.kept answer) move (fun _ w hw => hremembers.cancel answer w hw) h
  exact hkept

/-- A move of the operations keeps the minutes, with the turn that it brings. -/
theorem kept_step (hremembers : Remembers E pass.filter Heard) (move : Move) {jobs : Group Job}
    (h : Kept Heard pass before past jobs.slots jobs.failure site) :
    let next := jobs.step (Job.conduct E) move site
    Kept Heard pass before
      (past ++ (bout? E move { pass with stage := .working jobs } site).toList) next.1.slots
      next.1.failure next.2 := by
  rcases h with ⟨listing, operations, hheard, hoperations, hminutes⟩
  refine ⟨listing, operations, heard_step hremembers move hheard, hoperations, ?_⟩
  simp only [bout?]
  cases htaken : jobs.taken? move with
  | none =>
      rw [Option.map_none, Option.toList_none, List.append_nil]
      have hkept : Minutes operations before past jobs.slots jobs.failure
          (Scope.mk jobs.tripped site).world := hminutes
      exact Group.step_of_untaken (Minutes.keptByWaking E) (fun _ => Minutes.keptByCancelling E)
        htaken hkept
  | some slot =>
      rcases Group.step_of_taken? htaken (Job.conduct E) site with
        ⟨rest, hslots, hslots', hfailure, _, hsite⟩
      rw [hslots] at hminutes
      have hturned := Job.turned_guarded E (hminutes.fresh slot (Multiset.mem_cons_self _ _))
        ⟨jobs.tripped, site⟩
      rw [Option.map_some, Option.toList_some, hslots', hfailure, hsite]
      exact hminutes.concat hturned

/-- Every move keeps what is known. -/
theorem told_step (hremembers : Remembers E pass.filter Heard) (move : Move) {stage : Stage}
    (h : Told Heard pass before past stage site) :
    let next := Pass.step E move { pass with stage } site
    Told Heard pass before (past ++ (bout? E move { pass with stage } site).toList)
      next.1.stage next.2 := by
  cases stage with
  | gating gates =>
      rw [bout?, Option.toList_none, List.append_nil]
      exact afterGates_told _ ⟨h.past, h.channel, h.recreated⟩
  | listing started waiting errand =>
      rw [bout?, Option.toList_none, List.append_nil]
      cases move with
      | poll place => exact takeListing_told hremembers started h.1 h.2
      | fire => exact ⟨h.1, Errand.bears_wake.mpr h.2⟩
      | cancel => exact ⟨⟨h.1.past, h.1.channel, h.1.recreated⟩,
          h.2.imp fun answer => hremembers.cancel answer site.world⟩
  | working jobs => exact afterJobs_told (kept_step hremembers move h)
  | ended result =>
      rw [bout?, Option.toList_none, List.append_nil]
      cases move with
      | poll _ => exact h
      | fire => exact h
      | cancel =>
          rcases h with ⟨hsilent, herror⟩ | ⟨failure, hkept, hok⟩
          · exact Or.inl ⟨⟨hsilent.past, hsilent.channel, hsilent.recreated⟩, herror⟩
          · rcases hkept with ⟨listing, operations, hheard, hoperations, hminutes⟩
            exact Or.inr ⟨failure, ⟨listing, operations, hremembers.cancel _ _ hheard,
              hoperations, hminutes.elsewhere _⟩, hok⟩

/-- Nothing has been said, or there are minutes of what has. -/
theorem Told.silent_or_kept {stage : Stage} (h : Told Heard pass before past stage site) :
    Silent before past site ∨ ∃ slots failure, Kept Heard pass before past slots failure site := by
  cases stage with
  | gating gates => exact Or.inl h
  | listing started waiting errand => exact Or.inl h.1
  | working jobs => exact Or.inr ⟨_, _, h⟩
  | ended result =>
      rcases h with ⟨h, _⟩ | ⟨failure, h, _⟩
      · exact Or.inl h
      · exact Or.inr ⟨_, _, h⟩

/-- Whatever the moves, it is known what the operations of a pass have said. -/
theorem told_play (project : Project) (service : Service) (grace : Option Nat) (marks : Marks)
    (hremembers : Remembers E (Labels.serviceFilter project.name service.name) Heard)
    (site : Site ρ) (moves : List Move) :
    let pass := start project service grace marks
    let next := play E moves pass site
    Told Heard pass site (bouts E moves pass site) next.1.stage next.2 := by
  intro pass
  have hstart : Told Heard pass site [] pass.stage site :=
    afterGates_told _ ⟨rfl, rfl, rfl⟩
  exact bouts_rule E pass (fun move _ _ _ h => told_step hremembers move h) moves hstart

end Pass

end Fleet
