import Fleet.Container.Error

/-!
# Starting programs

Some work is done by other programs. A launcher starts a program with its
arguments and waits for it; what comes back is the output and the exit code, or
the reason why there was nothing to start.

Rehearsed programs come from a supply of outcomes prepared beforehand, one for
each program started, whichever it is. They let everything that works by way of
other programs run without them.

## Main definitions

* `Outcome`: What became of a program.
* `Launcher`: Starting programs in a world of type `ρ`.
* `Rehearsal`: A world with a supply of outcomes.
* `Rehearsal.launch`: The launcher of that world.
-/

namespace Fleet

/-- What became of a program. -/
structure Outcome where
  -- The bytes it wrote to standard output.
  stdout : List UInt8
  -- The bytes it wrote to standard error.
  stderr : List UInt8
  -- The exit code, none if a signal ended the program.
  code : Option Int
  deriving DecidableEq

/-- A program that wrote nothing and succeeded. -/
def Outcome.quiet : Outcome := ⟨[], [], some 0⟩

/-- Whether the program succeeded. -/
def Outcome.succeeded (outcome : Outcome) : Bool := outcome.code == some 0

/-- Starts a program with its arguments, and waits for it to end. -/
abbrev Launcher (ρ : Type) := String → List String → ρ → Except LaunchError Outcome × ρ

/-- A world in which programs do what was prepared for them. -/
structure Rehearsal where
  -- The programs there are.
  installed : List String
  -- What the programs still to be started will do; beyond the end they are quiet.
  outcomes : List Outcome
  -- The programs started so far, each with its arguments.
  started : List (List String)

namespace Rehearsal

/-- Whether a text holds a null character. -/
def hasNull (s : String) : Bool := s.toList.any (· == '\x00')

/-- Starts a program; an argument that cannot be passed is noticed before anything is looked for. -/
def launch : Launcher Rehearsal := fun program arguments w =>
  if (program :: arguments).any hasNull then (.error .nullCharacter, w)
  else if program ∉ w.installed then (.error .notFound, w)
  else
    (.ok (w.outcomes.headD .quiet),
      { w with outcomes := w.outcomes.tail, started := w.started ++ [program :: arguments] })

end Rehearsal

end Fleet
