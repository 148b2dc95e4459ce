import Fleet.Text.Search

/-!
# What a run of tests reports

The verdict on a run of tests hangs on how the program ended and on the lines
it printed. A line that reports a test has three dots between its name and its
result. The checks and the test command read those lines each in their own
way.

## Main definitions

* `failureCount`: How the checks count failures.
* `TestSummary`: How the test command counts tests.
* `checkPasses`, `summaryPasses`: The verdicts.
-/

namespace Fleet

/-- A line that reports a failure to the checks: it has the words anywhere. -/
def reportsFailure (line : String) : Bool := Text.contains line " ... FAILED"

/-- How many lines report a failure. -/
def failureCount (lines : List String) : Nat := (lines.filter reportsFailure).length

/-- The verdict of the checks. -/
def checkPasses (succeeded : Bool) (lines : List String) : Bool :=
  succeeded && failureCount lines == 0

/-- Tests by their result. -/
structure TestSummary where
  total : Nat
  passed : Nat
  failed : Nat
  ignored : Nat
  deriving DecidableEq

namespace TestSummary

/-- No tests. -/
def none : TestSummary := ⟨0, 0, 0, 0⟩

/-- Takes in a line. It reports a test if it begins with the word and has three dots, and it ends
    with the result. -/
def addLine (s : TestSummary) (line : String) : TestSummary :=
  if Text.begins line "test " && Text.contains line " ... " then
    let s := { s with total := s.total + 1 }
    if Text.ends line " ... ok" then { s with passed := s.passed + 1 }
    else if Text.ends line " ... FAILED" then { s with failed := s.failed + 1 }
    else if Text.ends line " ... ignored" then { s with ignored := s.ignored + 1 }
    else s
  else s

/-- The summary of all lines. -/
def ofLines (lines : List String) : TestSummary := lines.foldl addLine none

/-- A summary in words. -/
def text (s : TestSummary) : String :=
  if s.total = 0 then "No test results captured"
  else
    "Test Summary: " ++ toString s.total ++ " total, " ++ toString s.passed ++ " passed, " ++
      toString s.failed ++ " failed, " ++ toString s.ignored ++ " ignored"

end TestSummary

/-- The verdict of the test command. -/
def summaryPasses (succeeded : Bool) (lines : List String) : Bool :=
  succeeded && (TestSummary.ofLines lines).failed == 0

end Fleet
