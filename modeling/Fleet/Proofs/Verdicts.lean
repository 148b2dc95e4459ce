import Fleet.Chores.Rehearsing
import Fleet.Proofs.Printed

/-!
# Two verdicts on one run of tests

The checks and the test command both start the tests and judge by how they ended and by
what they printed. Each knows a failed test by signs of its own: to the checks a line fails
if it has the words anywhere, to the test command if it begins as the report of a test and
ends with the words. Tests pass on what they print, so any line can stand anywhere, and
nothing keeps a line that is not a report from having the words.

A report of a failed test has the words (`reportsFailure_of_failingTest`), and so the checks
complain whenever the test command does. The converse fails for one kind of output only,
which is given a name (`Outcome.Misread`): it is all text, the program succeeded, and a line
has the words although no line reports a failed test. Where the lines stand does not matter
to either verdict, since both ask whether there is a line of some kind (`checkPasses_iff`,
`summaryPasses_iff`), whereas the test command counts the tests while it goes along.

What the chores do around this is cut off: all that the test command does before it starts
the tests (`TestSelection.prepare`), and whatever is said afterwards.

## Main definitions

* `failingTest`: A line that reports a failed test.
* `Outcome.texts`, `Outcome.Readable`: The lines of an output that are text, and whether all are.
* `Outcome.Misread`: An output that only the checks take for a failure.
* `TestSelection.prepare`, `TestSelection.conclude`: The two halves of the test command.

## Theorems

* `failed_ofLines`: How many failed tests the test command counts.
* `checkTests_complains_iff`, `TestSelection.work_complains_iff`: When either complains.
* `verdicts_agree_iff`: When they agree.
-/

namespace Fleet

/-! ### Lines -/

/-- A line that reports a failed test: it begins with the word and ends with the result. -/
def failingTest (line : String) : Bool :=
  Text.begins line "test " && Text.ends line " ... FAILED"

theorem Text.ends_iff {s needle : String} : ends s needle = true ↔ needle.toList <:+ s.toList :=
  List.isSuffixOf_iff_suffix

/-- A text that ends with another has whatever that one has. -/
theorem Text.contains_of_ends {s last needle : String} (h : ends s last = true)
    (hneedle : needle.toList <:+: last.toList) : contains s needle = true :=
  hasSublist_iff.mpr (hneedle.trans (ends_iff.mp h).isInfix)

theorem reportsFailure_of_failingTest {line : String} (h : failingTest line = true) :
    reportsFailure line = true :=
  Text.contains_of_ends (Bool.and_eq_true_iff.mp h).2 List.infix_rfl

/-- A line does not end with both results. -/
theorem not_ends_ok {line : String} (h : Text.ends line " ... FAILED" = true) :
    Text.ends line " ... ok" = false := by
  rw [← Bool.not_eq_true, Text.ends_iff]
  intro hok
  have hsuffix := List.suffix_of_suffix_length_le hok (Text.ends_iff.mp h) (by decide)
  exact absurd hsuffix (by decide)

namespace TestSummary

/-- Of the lines it takes in, a summary counts those as failed that report a failed test. -/
theorem failed_addLine (s : TestSummary) (line : String) :
    (s.addLine line).failed = s.failed + if failingTest line then 1 else 0 := by
  rw [addLine, failingTest]
  cases hfailed : Text.ends line " ... FAILED" with
  | true =>
      have hdots : Text.contains line " ... " = true := Text.contains_of_ends hfailed (by decide)
      rw [hdots, not_ends_ok hfailed]
      cases Text.begins line "test " with
      | true => rfl
      | false => rfl
  | false =>
      rw [Bool.and_false]
      split
      · split
        · rfl
        · simp only [Bool.false_eq_true, if_false, Nat.add_zero]
          split <;> rfl
      · rfl

/-- A summary counts the failed tests that are reported. -/
theorem failed_ofLines (lines : List String) :
    (ofLines lines).failed = lines.countP failingTest := by
  have hrun : ∀ s : TestSummary,
      (lines.foldl addLine s).failed = s.failed + lines.countP failingTest := by
    induction lines with
    | nil => exact fun s => rfl
    | cons line rest ih =>
        intro s
        rw [List.foldl_cons, ih, failed_addLine, List.countP_cons]
        omega
  rw [ofLines, hrun]
  exact Nat.zero_add _

end TestSummary

/-! ### Verdicts -/

/-- The checks pass a run that succeeded and printed no line with the words of a failure. -/
theorem checkPasses_iff {succeeded : Bool} {lines : List String} :
    checkPasses succeeded lines = true ↔
      succeeded = true ∧ ∀ line ∈ lines, ¬reportsFailure line = true := by
  rw [checkPasses, Bool.and_eq_true, beq_iff_eq, failureCount, List.length_eq_zero_iff,
    List.filter_eq_nil_iff]

/-- The test command passes a run that succeeded and reported no failed test. -/
theorem summaryPasses_iff {succeeded : Bool} {lines : List String} :
    summaryPasses succeeded lines = true ↔
      succeeded = true ∧ ∀ line ∈ lines, ¬failingTest line = true := by
  rw [summaryPasses, Bool.and_eq_true, beq_iff_eq, TestSummary.failed_ofLines, List.countP_eq_zero]

/-! ### What programs print -/

namespace Outcome

/-- The lines a program printed, those on standard output first. -/
def lines (o : Outcome) : List (List UInt8) := Text.byteLines o.stdout ++ Text.byteLines o.stderr

/-- Those of its lines that are text. -/
def texts (o : Outcome) : List String := o.lines.filterMap Text.decode?

/-- All lines a program printed are text. -/
def Readable (o : Outcome) : Prop := ∀ line ∈ o.lines, Text.decode? line ≠ none

/-- A program that succeeded and reported no failed test, and all the same printed the words of a
    failure, in lines that are all text. -/
structure Misread (o : Outcome) : Prop where
  succeeded : o.succeeded = true
  readable : o.Readable
  worded : ∃ line ∈ o.texts, reportsFailure line = true
  clean : ∀ line ∈ o.texts, ¬failingTest line = true

theorem Readable.perm {o p : Outcome} (h : o.lines.Perm p.lines) : o.Readable ↔ p.Readable :=
  forall_congr' fun _ => imp_congr_left h.mem_iff

theorem mem_texts_of_perm {o p : Outcome} (h : o.lines.Perm p.lines) {line : String} :
    line ∈ o.texts ↔ line ∈ p.texts := (h.filterMap _).mem_iff

end Outcome

namespace Work

variable {ρ α β : Type} {c c' : Console ρ}

theorem run_bind_ok {x : Work ρ α} {f : α → Work ρ β} {a : α} (h : x.run.run c = (.ok a, c')) :
    (x >>= f).run.run c = (f a).run.run c' := by
  rw [ExceptT.run_bind, StateT.run_bind, h]
  rfl

theorem run_bind_error {x : Work ρ α} {f : α → Work ρ β} {complaint : Complaint}
    (h : x.run.run c = (.error complaint, c')) : (x >>= f).run.run c = (.error complaint, c') := by
  rw [ExceptT.run_bind, StateT.run_bind, h]
  rfl

theorem run_say (line : String) (c : Console ρ) :
    ∃ c', (say line).run.run c = (.ok (), c') ∧ c'.world = c.world := ⟨_, rfl, rfl⟩

theorem run_say_each (lines : List String) (c : Console ρ) :
    ∃ c', (lines.forM (say (ρ := ρ))).run.run c = (.ok (), c') := by
  induction lines generalizing c with
  | nil => exact ⟨c, rfl⟩
  | cons line rest ih =>
      rcases run_say line c with ⟨said, hsaid, _⟩
      rcases ih said with ⟨c', hrest⟩
      exact ⟨c', (run_bind_ok hsaid).trans hrest⟩

theorem textLines_of_forall {lines : List (List UInt8)}
    (h : ∀ line ∈ lines, Text.decode? line ≠ none) :
    textLines lines = (lines.filterMap Text.decode?, true) := by
  induction lines with
  | nil => rfl
  | cons bytes rest ih =>
      rcases List.forall_mem_cons.mp h with ⟨hbytes, hrest⟩
      rcases Option.ne_none_iff_exists'.mp hbytes with ⟨line, hline⟩
      rw [textLines, hline, ih hrest, List.filterMap_cons_some hline]

theorem textLines_of_not_forall {lines : List (List UInt8)}
    (h : ¬∀ line ∈ lines, Text.decode? line ≠ none) : (textLines lines).2 = false := by
  induction lines with
  | nil => exact absurd (fun _ hline => absurd hline List.not_mem_nil) h
  | cons bytes rest ih =>
      rw [textLines]
      cases hbytes : Text.decode? bytes with
      | none => rfl
      | some line =>
          refine ih fun hrest => h (List.forall_mem_cons.mpr ⟨?_, hrest⟩)
          rw [hbytes]
          exact Option.some_ne_none line

variable {L : Launcher ρ} {program : String} {arguments : List String} {o : Outcome}

/-- What comes of a program that can be started, its lines having been passed on. -/
theorem run_stream (h : (L program arguments c.world).1 = .ok o) :
    ∃ c', (stream L true program arguments).run.run c =
      (if (textLines o.lines).2 then .ok ((textLines o.lines).1, o.succeeded) else .error .notText,
        c') := by
  rcases hL : L program arguments c.world with ⟨result, world⟩
  rw [hL] at h
  obtain rfl : result = .ok o := h
  rcases run_say_each (textLines o.lines).1 { c with world } with ⟨c', hsaid⟩
  refine ⟨c', ?_⟩
  have hget : (get : Work ρ (Console ρ)).run.run c = (.ok c, c) := rfl
  have hset : (set { c with world } : Work ρ PUnit).run.run c = (.ok (), { c with world }) := rfl
  rw [stream, run_bind_ok hget, hL]
  simp only [if_true]
  rw [run_bind_ok hset, ← Outcome.lines, run_bind_ok hsaid]
  cases (textLines o.lines).2 with
  | true => rfl
  | false => rfl

/-- A program with readable output gives its lines, and how it ended. -/
theorem run_stream_of_readable (h : (L program arguments c.world).1 = .ok o) (hread : o.Readable) :
    ∃ c', (stream L true program arguments).run.run c = (.ok (o.texts, o.succeeded), c') := by
  rcases run_stream h with ⟨c', hrun⟩
  rw [textLines_of_forall hread] at hrun
  exact ⟨c', hrun⟩

/-- A program with other output is complained of as such. -/
theorem run_stream_of_not_readable (h : (L program arguments c.world).1 = .ok o)
    (hread : ¬o.Readable) :
    ∃ c', (stream L true program arguments).run.run c = (.error .notText, c') := by
  rcases run_stream h with ⟨c', hrun⟩
  rw [textLines_of_not_forall hread] at hrun
  exact ⟨c', hrun⟩

end Work

open Work

variable {ρ : Type} {L : Launcher ρ}

/-! ### The two runners -/

/-- The words that run tests for a check. -/
def checkArguments (selection : List String) : List String :=
  ["test"] ++ selection ++ ["--", "--nocapture"]

/-- The checks complain of tests if they do not pass what can be read. -/
theorem checkTests_complains_iff {selection : List String} {c : Console ρ} {o : Outcome}
    (h : (L "cargo" (checkArguments selection) c.world).1 = .ok o) :
    (∃ failures, ((checkTests L selection).run.run c).1 = .error (.checkedTests failures)) ↔
      o.Readable ∧ ¬checkPasses o.succeeded o.texts = true := by
  rcases run_say ("  " ++ commandLine "cargo" (checkArguments selection) ++ "\n") c with
    ⟨said, hsaid, hworld⟩
  rw [← hworld] at h
  rw [checkTests, ← checkArguments, run_bind_ok hsaid]
  by_cases hread : o.Readable
  · rcases run_stream_of_readable h hread with ⟨c', hrun⟩
    rw [run_bind_ok hrun]
    dsimp only
    cases checkPasses o.succeeded o.texts with
    | true => exact iff_of_false (fun ⟨_, h⟩ => nomatch h) fun h => h.2 rfl
    | false => exact iff_of_true ⟨_, rfl⟩ ⟨hread, Bool.false_ne_true⟩
  · rcases run_stream_of_not_readable h hread with ⟨c', hrun⟩
    rw [run_bind_error hrun]
    exact iff_of_false nofun fun h => hread h.1

namespace TestSelection

/-- What is done before the tests selected are run. -/
def prepare (L : Launcher ρ) (s : TestSelection) : Work ρ Unit := do
  say "Running tests\n"
  say ("Command: " ++ commandLine "cargo" s.arguments)
  if s.allFeatures then say "Features: all-features (includes docker-tests)"
  else s.features.toList.forM fun features => say ("Features: " ++ features)
  say ""
  if s.needsDocker then ensureImages L

/-- Running the tests selected, and the verdict. -/
def conclude (L : Launcher ρ) (s : TestSelection) : Work ρ Unit := do
  let (lines, succeeded) ← stream L true "cargo" s.arguments
  say ("\n" ++ (TestSummary.ofLines lines).text)
  if !summaryPasses succeeded lines then throw .tests

theorem work_eq (L : Launcher ρ) (s : TestSelection) :
    s.work L = s.prepare L >>= fun _ => s.conclude L := by
  simp only [work, prepare, conclude]
  cases s.allFeatures <;> cases s.needsDocker <;>
    simp only [if_true, Bool.false_eq_true, if_false, bind_assoc, pure_bind]

/-- The test command complains of tests if it does not pass what can be read. -/
theorem work_complains_iff {s : TestSelection} {c ready : Console ρ} {o : Outcome}
    (hready : (s.prepare L).run.run c = (.ok (), ready))
    (h : (L "cargo" s.arguments ready.world).1 = .ok o) :
    ((s.work L).run.run c).1 = .error .tests ↔
      o.Readable ∧ ¬summaryPasses o.succeeded o.texts = true := by
  rw [work_eq, run_bind_ok hready, conclude]
  by_cases hread : o.Readable
  · rcases run_stream_of_readable h hread with ⟨c', hrun⟩
    rcases run_say ("\n" ++ (TestSummary.ofLines o.texts).text) c' with ⟨said, hsaid, _⟩
    rw [run_bind_ok hrun, run_bind_ok hsaid]
    cases summaryPasses o.succeeded o.texts with
    | true => exact iff_of_false nofun fun h => h.2 rfl
    | false => exact iff_of_true rfl ⟨hread, Bool.false_ne_true⟩
  · rcases run_stream_of_not_readable h hread with ⟨c', hrun⟩
    rw [run_bind_error hrun]
    exact iff_of_false nofun fun h => hread h.1

end TestSelection

/-- Of tests that end in the same way and print the same lines, in whatever order, the checks and
    the test command give the same verdict, unless they succeed, report no failed test and print the
    words of a failure in another line. Then the checks complain. -/
theorem verdicts_agree_iff {selection : List String} {s : TestSelection} {c d ready : Console ρ}
    {o p : Outcome} (hcheck : (L "cargo" (checkArguments selection) c.world).1 = .ok o)
    (hready : (s.prepare L).run.run d = (.ok (), ready))
    (htest : (L "cargo" s.arguments ready.world).1 = .ok p)
    (hended : o.succeeded = p.succeeded) (hlines : o.lines.Perm p.lines) :
    let checked := ∃ failures,
      ((checkTests L selection).run.run c).1 = .error (.checkedTests failures)
    let tested := ((s.work L).run.run d).1 = .error .tests
    (tested → checked) ∧ ((checked ↔ tested) ↔ ¬o.Misread) := by
  intro checked tested
  have hchecked : checked ↔ o.Readable ∧
      (o.succeeded = true → ∃ line ∈ o.texts, reportsFailure line = true) := by
    rw [show checked ↔ _ from checkTests_complains_iff hcheck, checkPasses_iff]
    push Not
    exact Iff.rfl
  have htested : tested ↔ o.Readable ∧
      (o.succeeded = true → ∃ line ∈ o.texts, failingTest line = true) := by
    rw [show tested ↔ _ from TestSelection.work_complains_iff hready htest, summaryPasses_iff,
      ← hended, ← Outcome.Readable.perm hlines]
    push Not
    simp only [Outcome.mem_texts_of_perm hlines]
  have hworse : tested → checked := by
    rw [hchecked, htested]
    rintro ⟨hread, hfailing⟩
    refine ⟨hread, fun hsucceeded => ?_⟩
    rcases hfailing hsucceeded with ⟨line, hline, hfails⟩
    exact ⟨line, hline, reportsFailure_of_failingTest hfails⟩
  refine ⟨hworse, ⟨fun hagree hmisread => ?_, fun hnot => ⟨fun hcomplaint => ?_, hworse⟩⟩⟩
  · have hcomplaint := hchecked.mpr ⟨hmisread.readable, fun _ => hmisread.worded⟩
    rcases (htested.mp (hagree.mp hcomplaint)).2 hmisread.succeeded with ⟨line, hline, hfails⟩
    exact hmisread.clean line hline hfails
  · rcases hchecked.mp hcomplaint with ⟨hread, hworded⟩
    refine htested.mpr ⟨hread, fun hsucceeded => ?_⟩
    by_contra hclean
    push Not at hclean
    exact hnot ⟨hsucceeded, hread, hworded hsucceeded, hclean⟩

/-! ### A fetch that failed at first -/

namespace Sample

/-- A program that succeeds and prints something on its two outputs. -/
def printing (stdout stderr : String) : Outcome := ⟨Text.encode stdout, Text.encode stderr, some 0⟩

/-- A console before such a program. -/
def before (outcome : Outcome) : Console Rehearsal := ⟨⟨chorePrograms, [outcome], []⟩, "", ""⟩

/-- A failed test reported on standard output, and another one on standard error. -/
def failing : Outcome := printing "test a ... FAILED\n" "test b ... ok\n"

/-- The same lines on one output, the other way round. -/
def failingLate : Outcome := printing "test b ... ok\ntest a ... FAILED\n" ""

/-- A test that passes and has printed that something failed which was then tried again. -/
def fetching : Outcome := printing "retrying fetch ... FAILED\ntest a ... ok\n" ""

/-- What selects the unit tests. -/
def units : List String := ["--workspace", "--lib", "--bins"]

end Sample

open Sample

/-- Whichever output a failed test is reported on, both runners complain of it. -/
theorem verdicts_agree_failing :
    (∃ failures, ((checkTests Rehearsal.launch units).run.run (before failing)).1 =
      .error (.checkedTests failures)) ∧
    ((TestSelection.none.work Rehearsal.launch).run.run (before failingLate)).1 =
      .error .tests := by
  have hcheck : (Rehearsal.launch "cargo" (checkArguments units) (before failing).world).1 =
      .ok failing := by decide +kernel
  let ready := ((TestSelection.none.prepare Rehearsal.launch).run.run (before failingLate)).2
  have hready : (TestSelection.none.prepare Rehearsal.launch).run.run (before failingLate) =
      (.ok (), ready) := rfl
  have htest : (Rehearsal.launch "cargo" TestSelection.none.arguments ready.world).1 =
      .ok failingLate := by decide +kernel
  have htested : ((TestSelection.none.work Rehearsal.launch).run.run (before failingLate)).1 =
      .error .tests := by decide +kernel
  have hagree := verdicts_agree_iff hcheck hready htest rfl (by decide +kernel)
  exact ⟨hagree.1 htested, htested⟩

/-- On a run that printed that something else failed and was tried again the checks complain of
    tests, and the test command reports that all have passed. -/
theorem not_verdicts_agree_fetching :
    ((Chore.check .unitTests).rehearse [fetching]).1 = 1 ∧
    ((Chore.test .none).rehearse [fetching]).1 = 0 ∧
    ¬((∃ failures, ((checkTests Rehearsal.launch units).run.run (before fetching)).1 =
        .error (.checkedTests failures)) ↔
      ((TestSelection.none.work Rehearsal.launch).run.run (before fetching)).1 =
        .error .tests) := by
  have hchecked : ((checkTests Rehearsal.launch units).run.run (before fetching)).1 =
      .error (.checkedTests 1) := by decide +kernel
  have htested : ((TestSelection.none.work Rehearsal.launch).run.run (before fetching)).1 ≠
      .error .tests := by decide +kernel
  exact ⟨by decide +kernel, by decide +kernel, fun hagree => htested (hagree.mp ⟨1, hchecked⟩)⟩

end Fleet
