import Fleet.Chores.Rehearsing
import Fleet.Json.Reader
import Fleet.Json.Source

/-!
# The command line

Rehearses the chore that the command line asks for. Standard input holds what
the programs it starts would do, as a list of records in JSON; where it is
empty, they all succeed in silence.
-/

namespace Fleet

/-- Everything on standard input. -/
partial def readAll (input : IO.FS.Stream) (text : String) : IO String := do
  let line ← input.getLine
  if line.isEmpty then return text else readAll input (text ++ line)

/-- Writes why nothing can be done. -/
def refuse (reason : String) : IO UInt32 := do
  IO.eprintln reason
  return 2

end Fleet

open Fleet

/-- Rehearses a chore. -/
def main (words : List String) : IO UInt32 := do
  let some chore := Chore.parse? words
    | refuse "usage: ci CHECK | test [OPTIONS] [FILTER] | docker ACTION"
  let text ← readAll (← IO.getStdin) ""
  let text := if Text.isBlankText text then "[]" else text
  let some outcomes := (Json.parse text).bind (Json.source.listOf (Outcome.read Json.source))
    | refuse "standard input is no list of outcomes"
  let (code, console) := chore.rehearse outcomes
  IO.print console.stdout
  IO.eprint console.stderr
  return UInt32.ofNat code
