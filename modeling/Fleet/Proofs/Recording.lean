import Fleet.Engine
import Mathlib.Data.Multiset.Bind

/-!
# Recorded runs

Statements about what a pass asks of its runtime need the requests and their
answers, and an engine shows neither: a request that has been carried out is gone,
and a task keeps of the answer only what it still needs. A recorded engine is the
same engine with a recording beside its state. It gives the same answers, pauses
and delays, so a run of it is a run of the engine, and every request that is
carried out is entered together with its answer.

It also records whether the caller has put an end to the work, at any moment of the
run. An engine may take this back with a later request, so the moment itself may be
past when its consequences are asked about.

Tasks beside each other make one list of requests out of many. `Interleaves` says
that a list consists of parts whose order has been kept, and it grows as a run
does: at the end of the whole, and at the end of one part.

## Main definitions

* `Call`: A request that has been carried out, with its answer.
* `births`: The ids of containers that requests have created.
* `Recording`, `Engine.recorded`: An engine with a recording beside its state.
* `Recording.work`: The requests that may have changed something.
* `Interleaves`: A list made up of parts.

## Theorems

* `Interleaves.append`: One part goes on.
* `Interleaves.coe_filterMap`: What is selected from the whole is selected from the parts.
-/

namespace Fleet

variable {ρ α : Type}

/-! ### Calls -/

/-- A request that has been carried out, with its answer. -/
structure Call where
  request : Request
  answer : Except RuntimeError request.Answer

namespace Call

/-- The request succeeded. -/
def Succeeded (call : Call) : Prop := ∃ answer, call.answer = .ok answer

/-- The id of the container that a request has created. -/
def born? : Call → Option String
  | ⟨.create _, .ok id⟩ => some id
  | _ => none

theorem born?_of_not_succeeded {call : Call} (h : ¬call.Succeeded) : call.born? = none := by
  rcases call with ⟨q, answer⟩
  cases answer with
  | ok answer => exact absurd ⟨answer, rfl⟩ h
  | error cause => cases q <;> rfl

end Call

/-- The ids of the containers that requests have created, in the order in which they came to be. -/
def births (calls : List Call) : List String := calls.filterMap Call.born?

@[simp] theorem births_append (calls calls' : List Call) :
    births (calls ++ calls') = births calls ++ births calls' := List.filterMap_append

/-! ### Recordings -/

/-- The state of an engine with what has been recorded. -/
structure Recording (ρ : Type) where
  world : ρ
  -- The requests carried out, with their answers.
  calls : List Call
  -- The caller has put an end to the work at some moment.
  interrupted : Bool

namespace Recording

/-- A recording at its beginning. -/
def start (E : Engine ρ) (w : ρ) : Recording ρ := ⟨w, [], E.cancelled w⟩

/-- The requests carried out that may have changed something. -/
def work (r : Recording ρ) : List Call := r.calls.filter (·.request.isMutation)

end Recording

/-- An engine with a recording beside its state. -/
def Engine.recorded (E : Engine ρ) : Engine (Recording ρ) where
  call q r := ((E.call q r.world).1, ⟨(E.call q r.world).2,
    r.calls ++ [⟨q, (E.call q r.world).1⟩], r.interrupted || E.cancelled (E.call q r.world).2⟩)
  pauses r := E.pauses r.world
  slow r after := E.slow r.world after.world
  cancelled r := E.cancelled r.world
  cancel r := ⟨E.cancel r.world, r.calls, r.interrupted || E.cancelled (E.cancel r.world)⟩

namespace Engine

variable (E : Engine ρ) (q : Request) (r : Recording ρ)

theorem recorded_calls : (E.recorded.call q r).2.calls =
    r.calls ++ [⟨q, (E.recorded.call q r).1⟩] := rfl

theorem recorded_work (h : q.isMutation = true) : (E.recorded.call q r).2.work =
    r.work ++ [⟨q, (E.recorded.call q r).1⟩] := by
  rw [Recording.work, recorded_calls, List.filter_append, Recording.work]
  congr 1
  exact List.filter_cons_of_pos h

theorem recorded_work_of_looking (h : q.isMutation = false) :
    (E.recorded.call q r).2.work = r.work := by
  rw [Recording.work, recorded_calls, List.filter_append, Recording.work,
    List.filter_cons_of_neg (by simp only [h, Bool.false_eq_true, not_false_eq_true]),
    List.filter_nil, List.append_nil]

end Engine

/-! ### Interleavings -/

/-- A list made up of parts, each of them in its order. -/
inductive Interleaves : Multiset (List α) → List α → Prop
  -- Nothing has come from any part.
  | nil {parts : Multiset (List α)} : (∀ part ∈ parts, part = []) → Interleaves parts []
  -- The last element comes from one of the parts.
  | snoc {part : List α} {others : Multiset (List α)} {whole : List α} (a : α) :
    Interleaves (part ::ₘ others) whole → Interleaves ((part ++ [a]) ::ₘ others) (whole ++ [a])

namespace Interleaves

/-- One part goes on. -/
theorem append {part : List α} {others : Multiset (List α)} {whole : List α}
    (h : Interleaves (part ::ₘ others) whole) (new : List α) :
    Interleaves ((part ++ new) ::ₘ others) (whole ++ new) := by
  induction new generalizing part whole with
  | nil =>
      rw [List.append_nil, List.append_nil]
      exact h
  | cons a new ih =>
      rw [List.append_cons, List.append_cons whole]
      exact ih (h.snoc a)

/-- What is selected from the whole is selected from the parts. -/
theorem coe_filterMap {β : Type} {parts : Multiset (List α)} {whole : List α}
    (h : Interleaves parts whole) (f : α → Option β) :
    (whole.filterMap f : Multiset β) = parts.bind fun part => (part.filterMap f : Multiset β) := by
  induction h with
  | @nil parts hparts =>
      have hempty : (parts.bind fun part => (part.filterMap f : Multiset β)) =
          parts.bind fun _ => 0 :=
        Multiset.bind_congr fun part hpart => by rw [hparts part hpart]; rfl
      rw [hempty, Multiset.bind_zero]
      rfl
  | @snoc part others whole a _ ih =>
      rw [Multiset.cons_bind] at ih ⊢
      rw [List.filterMap_append, List.filterMap_append, ← Multiset.coe_add, ih,
        ← Multiset.coe_add, add_right_comm]

end Interleaves

end Fleet
