import Fleet.Proofs.Store

/-!
# Requests that fail

A request can fail in several places. A failure may be laid in store for it; a name it
gives may be taken; the container it is about may not be there, or may be running. Some of
these are looked at before others, and renaming looks at names before it looks for the
container, so a store may have two reasons and gives the first.

What has to be true of every one of them is that nothing has been done by then. A request
that fails is in the log like any other, and if a failure was in store for its kind, that
one is used up. The rest of the store is what it was, down to the ids that have been given
out (`call_of_error`), so that the same request can be made again as if for the first time.

The reasons that containers give are listed in `Request.Declined`, one constructor for each
place, and `Store.serve_eq_error_iff` says that there are no others. It is an equivalence, so
it also says when a request succeeds.

## Main definitions

* `Request.Declined`: Why the containers do not let a request succeed.

## Theorems

* `Store.serve_eq_error_iff`: A request that is carried out fails if the containers decline it.
* `Store.call_of_error`: What a request that fails leaves behind.
* `Store.call_log_pending`: What every request leaves behind.
-/

namespace Fleet

namespace Request

/-- Why the containers do not let a request succeed. -/
inductive Declined (cs : List Container) : Request → RuntimeError → Prop
  -- A container has the name already.
  | taken {b : Blueprint} : (∃ c ∈ cs, c.name = b.name) →
    Declined cs (create b) (.refused .create (.nameInUse b.name))
  -- Another container has the name already.
  | takenByOther {id name : String} : (∃ c ∈ cs, c.name = name ∧ c.id ≠ id) →
    Declined cs (rename id name) (.refused .rename (.nameInUse name))
  -- There is no such container, and no name is in the way.
  | unknown {q : Request} {id : String} : q.target? = some id → (∀ c ∈ cs, c.id ≠ id) →
    (∀ name, q = rename id name → ∀ c ∈ cs, c.name ≠ name) → Declined cs q (.notFound id)
  -- The container is running.
  | running {id : String} {c : Container} : cs.find? (·.id = id) = some c →
    c.state.isRunning = true → Declined cs (remove id) (.refused .remove (.isRunning id))

/-- Only a request about a container can miss it. -/
theorem Declined.target {cs : List Container} {q : Request} {id : String}
    (h : q.Declined cs (.notFound id)) : q.target? = some id ∧ (∀ c ∈ cs, c.id ≠ id) ∧
      ∀ name, q = rename id name → ∀ c ∈ cs, c.name ≠ name := by
  cases h with
  | unknown htarget hout hfree => exact ⟨htarget, hout, hfree⟩

theorem not_declined_list {cs : List Container} {filter : LabelFilter} {cause : RuntimeError} :
    ¬(list filter).Declined cs cause := by
  intro h
  cases h with
  | unknown htarget => cases htarget

theorem declined_create_iff {cs : List Container} {b : Blueprint} {cause : RuntimeError} :
    (create b).Declined cs cause ↔
      (∃ c ∈ cs, c.name = b.name) ∧ cause = .refused .create (.nameInUse b.name) := by
  constructor
  · intro h
    cases h with
    | taken htaken => exact ⟨htaken, rfl⟩
    | unknown htarget => cases htarget
  · rintro ⟨htaken, rfl⟩
    exact .taken htaken

theorem declined_rename_iff {cs : List Container} {id name : String} {cause : RuntimeError} :
    (rename id name).Declined cs cause ↔
      ((∃ c ∈ cs, c.name = name ∧ c.id ≠ id) ∧ cause = .refused .rename (.nameInUse name)) ∨
      ((∀ c ∈ cs, c.id ≠ id ∧ c.name ≠ name) ∧ cause = .notFound id) := by
  constructor
  · intro h
    cases h with
    | takenByOther htaken => exact Or.inl ⟨htaken, rfl⟩
    | unknown htarget hout hfree =>
        cases htarget
        exact Or.inr ⟨fun c hc => ⟨hout c hc, hfree name rfl c hc⟩, rfl⟩
  · rintro (⟨htaken, rfl⟩ | ⟨hout, rfl⟩)
    · exact .takenByOther htaken
    · refine .unknown rfl (fun c hc => (hout c hc).1) fun other hother c hc => ?_
      cases hother
      exact (hout c hc).2

theorem declined_remove_iff {cs : List Container} {id : String} {cause : RuntimeError} :
    (remove id).Declined cs cause ↔ ((∀ c ∈ cs, c.id ≠ id) ∧ cause = .notFound id) ∨
      ∃ c, cs.find? (·.id = id) = some c ∧ c.state.isRunning = true ∧
        cause = .refused .remove (.isRunning id) := by
  constructor
  · intro h
    cases h with
    | unknown htarget hout =>
        cases htarget
        exact Or.inl ⟨hout, rfl⟩
    | running hfound hrunning => exact Or.inr ⟨_, hfound, hrunning, rfl⟩
  · rintro (⟨hout, rfl⟩ | ⟨c, hfound, hrunning, rfl⟩)
    · exact .unknown rfl hout nofun
    · exact .running hfound hrunning

/-- A request that needs its container and nothing else is declined if there is none. -/
theorem declined_iff_of_target {cs : List Container} {q : Request} {id : String}
    {cause : RuntimeError} (htarget : q.target? = some id)
    (hother : q.verb ≠ .rename ∧ q.verb ≠ .remove) :
    q.Declined cs cause ↔ (∀ c ∈ cs, c.id ≠ id) ∧ cause = .notFound id := by
  constructor
  · intro h
    cases h with
    | taken => cases htarget
    | takenByOther => exact absurd rfl hother.1
    | unknown htarget' hout =>
        cases htarget.symm.trans htarget'
        exact ⟨hout, rfl⟩
    | running => exact absurd rfl hother.2
  · rintro ⟨hout, rfl⟩
    refine .unknown htarget hout fun name h => absurd ?_ hother.1
    rw [h, verb]

end Request

namespace Store

variable {s : Store} {q : Request} {cause : RuntimeError}

theorem container?_eq_none_iff {id : String} :
    s.container? id = none ↔ ∀ c ∈ s.containers, c.id ≠ id := by
  simp only [container?, List.find?_eq_none, decide_eq_true_eq, ne_eq]

/-- A change of one container fails if it is not there. -/
theorem change_eq_error_iff {id : String} {f : Container → Container} :
    (s.change id f).1 = .error cause ↔
      (∀ c ∈ s.containers, c.id ≠ id) ∧ cause = .notFound id := by
  rw [← container?_eq_none_iff, change]
  cases s.container? id with
  | none => simp only [Except.error.injEq, true_and, eq_comm]
  | some c => simp only [reduceCtorEq, false_and]

theorem create_eq_error_iff {b : Blueprint} : (s.create b).1 = .error cause ↔
    (∃ c ∈ s.containers, c.name = b.name) ∧ cause = .refused .create (.nameInUse b.name) := by
  rw [create]
  by_cases htaken : ∃ c ∈ s.containers, c.name = b.name
  · rw [if_pos (by simpa using htaken), Except.error.injEq, eq_comm]
    exact (and_iff_right htaken).symm
  · rw [if_neg (by simpa using htaken)]
    simp only [reduceCtorEq, htaken, false_and]

theorem rename_eq_error_iff {id name : String} : (s.rename id name).1 = .error cause ↔
    (Request.rename id name).Declined s.containers cause := by
  rw [Request.declined_rename_iff, rename]
  by_cases htaken : ∃ c ∈ s.containers, c.name = name ∧ c.id ≠ id
  · -- Whether the container is there makes no difference any more.
    have hnot : ¬∀ c ∈ s.containers, c.id ≠ id ∧ c.name ≠ name := by
      rcases htaken with ⟨c, hc, hname, _⟩
      exact fun hout => (hout c hc).2 hname
    rw [if_pos (by simpa using htaken), Except.error.injEq, eq_comm]
    simp only [htaken, hnot, true_and, false_and, or_false]
  · have hfree : (∀ c ∈ s.containers, c.id ≠ id) ↔
        ∀ c ∈ s.containers, c.id ≠ id ∧ c.name ≠ name :=
      ⟨fun hout c hc => ⟨hout c hc, fun hname => htaken ⟨c, hc, hname, hout c hc⟩⟩,
        fun hout c hc => (hout c hc).1⟩
    rw [if_neg (by simpa using htaken), change_eq_error_iff, hfree]
    simp only [htaken, false_and, false_or]

theorem remove_eq_error_iff {id : String} : (s.remove id).1 = .error cause ↔
    (Request.remove id).Declined s.containers cause := by
  rw [Request.declined_remove_iff, ← container?_eq_none_iff, ← container?, remove]
  cases s.container? id with
  | none =>
      simp only [Except.error.injEq, true_and, reduceCtorEq, false_and, exists_false, or_false]
      exact eq_comm
  | some c =>
      simp only [reduceCtorEq, false_and, false_or, Option.some.injEq, exists_eq_left']
      by_cases hrunning : c.state.isRunning = true
      · rw [if_pos hrunning, Except.error.injEq, eq_comm]
        exact (and_iff_right hrunning).symm
      · rw [if_neg hrunning]
        simp only [reduceCtorEq, hrunning, false_and]

/-- A request that is carried out fails if the containers decline it, and for that reason. -/
theorem serve_eq_error_iff : (serve q s).1 = .error cause ↔ q.Declined s.containers cause := by
  cases q with
  | list filter => exact iff_of_false nofun Request.not_declined_list
  | create b => exact create_eq_error_iff.trans Request.declined_create_iff.symm
  | rename id name => exact rename_eq_error_iff
  | remove id => exact remove_eq_error_iff
  | inspect id =>
      rw [Request.declined_iff_of_target rfl (by simp [Request.verb]), ← container?_eq_none_iff,
        serve]
      cases s.container? id with
      | none => simp only [Except.error.injEq, true_and, eq_comm]
      | some c => simp only [reduceCtorEq, false_and]
  | start id =>
      rw [Request.declined_iff_of_target rfl (by simp [Request.verb])]
      exact change_eq_error_iff
  | stop id grace =>
      rw [Request.declined_iff_of_target rfl (by simp [Request.verb])]
      exact change_eq_error_iff
  | connect network id aliases =>
      rw [Request.declined_iff_of_target rfl (by simp [Request.verb])]
      exact change_eq_error_iff

/-! ### What is left of a request -/

/-- Using up a failure where there is none does nothing. -/
theorem usePending_eq_self {v : Verb} (h : s.pending v = none) : s.usePending v = s := by
  have hpending : (fun u => if u = v then none else s.pending u) = s.pending := by
    funext u
    by_cases hu : u = v
    · rw [if_pos hu, hu, h]
    · rw [if_neg hu]
  rw [usePending, hpending]

/-- What a request that fails leaves behind: it is in the log, and no failure is in store for its
    kind any more. -/
theorem call_of_error (h : (call q s).1 = .error cause) :
    (call q s).2 = (s.logged q).usePending q.verb := by
  cases hpending : s.pending q.verb with
  | some reason => rw [call_of_pending_some hpending]
  | none =>
      rw [call_of_pending_none hpending] at h ⊢
      rw [usePending_eq_self (s := s.logged q) hpending]
      rcases serve_cases q (s.logged q) with ⟨_, answer, heq, _⟩ | ⟨_, _, heq⟩
      · rw [heq] at h
        cases h
      · rw [heq]

/-- Every request is in the log, at its end, and no failure is in store for its kind after it. -/
theorem call_log_pending (q : Request) (s : Store) : (call q s).2.log = s.log ++ [q] ∧
    (call q s).2.pending = (s.usePending q.verb).pending := by
  cases hcall : (call q s).1 with
  | error cause =>
      rw [call_of_error hcall]
      exact ⟨rfl, rfl⟩
  | ok answer =>
      have hnone : s.pending q.verb = none := by
        cases hpending : s.pending q.verb with
        | none => rfl
        | some reason =>
            rw [call_of_pending_some hpending] at hcall
            cases hcall
      rw [(call_ok hcall).2.1, usePending_eq_self hnone]
      exact ⟨rfl, rfl⟩

/-- A request is entered in the log whatever becomes of it, and uses up the failure in store for its
    kind and no other. If there is one it fails with that reason, and otherwise if and only if the
    containers decline it; and one that fails changes nothing else in the store. -/
theorem failed_call_only_logged (s : Store) (q : Request) :
    (s.call q).2.log = s.log ++ [q] ∧
    (s.call q).2.pending = (fun v => if v = q.verb then none else s.pending v) ∧
    (∀ reason, s.pending q.verb = some reason →
      (s.call q).1 = .error (.refused q.verb (.told reason))) ∧
    (s.pending q.verb = none →
      ∀ cause, (s.call q).1 = .error cause ↔ q.Declined s.containers cause) ∧
    ∀ cause, (s.call q).1 = .error cause →
      (s.call q).2.containers = s.containers ∧
      (s.call q).2 = { s with log := (s.call q).2.log, pending := (s.call q).2.pending } := by
  rcases call_log_pending q s with ⟨hlog, hpending⟩
  refine ⟨hlog, hpending, fun reason htold => ?_, fun hnone cause => ?_, fun cause hcause => ?_⟩
  · rw [call_of_pending_some htold]
  · rw [call_of_pending_none hnone]
    exact serve_eq_error_iff
  · rw [call_of_error hcause]
    exact ⟨rfl, rfl⟩

end Store

end Fleet
