import Fleet.Chores.Run
import Fleet.Source

/-!
# Rehearsing chores

A chore can be tried out without starting anything: what each program would do
is prepared beforehand, as a list of records with the two outputs and the exit
code, in the order in which the programs are started.

## Main definitions

* `Outcome.read`: Reading what a program would do.
* `Chore.rehearse`: A chore with prepared outcomes.
-/

namespace Fleet

/-- Reads what a program would do; what is left out is empty, or success. -/
def Outcome.read {m : Type → Type} {σ : Type} [Monad m] [MonadExcept Unit m] (S : Source m σ)
    (value : σ) : m Outcome := do
  let fields ← S.fields ["stdout", "stderr", "code"] value
  let stdout ← Source.optional fields "stdout" S.text ""
  let stderr ← Source.optional fields "stderr" S.text ""
  let code ← Source.optional fields "code" (S.natural 256) 0
  return ⟨Text.encode stdout, Text.encode stderr, some code⟩

/-- The programs that chores start. -/
def chorePrograms : List String := ["cargo", "docker"]

/-- Does a chore with prepared outcomes: its exit code, and what is written. -/
def Chore.rehearse (chore : Chore) (outcomes : List Outcome) : Nat × Console Rehearsal :=
  chore.run Rehearsal.launch ⟨chorePrograms, outcomes, []⟩

end Fleet
