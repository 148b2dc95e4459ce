import Fleet.Chores.CommandLine
import Fleet.Chores.TestReport
import Fleet.Launch
import Fleet.Text.Lines
import Fleet.Text.Space
import Fleet.Text.Utf8

/-!
# Running chores

Every chore is a few programs started one after the other, with words for
whoever reads along. Programs pass their output on line by line, and a line that
is not UTF-8 ends the chore, after the lines before it.

The full run of checks leaves out what cannot be done here: the check of the
dependencies if its tool is not there, and the tests that need a container
runtime if none answers.

## Main definitions

* `Complaint`: Why a chore failed.
* `Console`: What has been written so far, with the world of programs.
* `Work`: Something done at a console.
* `Chore.work`: Doing a chore.
* `Chore.run`: The exit code of a chore and the console after it.
-/

namespace Fleet

/-- Why a chore failed. -/
inductive Complaint
  -- A program could not be started.
  | launch (command : String) (cause : LaunchError)
  -- A program printed something that is not text.
  | notText
  | format
  | lints
  | dependencies
  -- Tests failed, as the checks count them.
  | checkedTests (failures : Nat)
  | tests
  | pull (image : String)
  deriving DecidableEq

/-- A complaint in words. -/
def Complaint.message : Complaint → String
  | launch command cause =>
    "failed to spawn " ++ command ++ "\n\nCaused by:\n    " ++ cause.message
  | notText => "stream did not contain valid UTF-8"
  | format => "Format check failed. Run 'cargo fmt --all' to fix."
  | lints => "Clippy check failed"
  | dependencies => "Cargo deny check failed"
  | checkedTests failures => "Tests failed (" ++ toString failures ++ " failures)"
  | tests => "Tests failed"
  | pull image => "Failed to pull Docker image " ++ image

/-- What has been written so far, with the world that programs are started in. -/
structure Console (ρ : Type) where
  world : ρ
  stdout : String
  stderr : String

/-- Something done at a console, which may come to an end with a complaint. -/
abbrev Work (ρ α : Type) := ExceptT Complaint (StateM (Console ρ)) α

namespace Work

variable {ρ : Type}

/-- Writes to standard output. -/
def print (text : String) : Work ρ Unit :=
  modify fun c => { c with stdout := c.stdout ++ text }

/-- Writes a line to standard output. -/
def say (line : String) : Work ρ Unit := print (line ++ "\n")

/-- Writes a line to standard error. -/
def warn (line : String) : Work ρ Unit :=
  modify fun c => { c with stderr := c.stderr ++ line ++ "\n" }

/-- The lines up to the first that is not UTF-8, and whether all of them are. -/
def textLines : List (List UInt8) → List String × Bool
  | [] => ([], true)
  | bytes :: rest =>
    match Text.decode? bytes with
    | none => ([], false)
    | some line => let (lines, whole) := textLines rest; (line :: lines, whole)

/-- The command line of a program. -/
def commandLine (program : String) (arguments : List String) : String :=
  program ++ " " ++ " ".intercalate arguments

/-- Starts a program: the lines it printed, passed on as they come, and whether it succeeded. -/
def stream (L : Launcher ρ) (echo : Bool) (program : String) (arguments : List String) :
    Work ρ (List String × Bool) := do
  let c ← get
  match L program arguments c.world with
  | (.error cause, world) =>
    set { c with world }
    throw (.launch (commandLine program arguments) cause)
  | (.ok outcome, world) =>
    set { c with world }
    let (lines, whole) :=
      textLines (Text.byteLines outcome.stdout ++ Text.byteLines outcome.stderr)
    if echo then lines.forM say
    if whole then return (lines, outcome.succeeded) else throw .notText

/-- Starts a program and passes its output on. -/
def echoed (L : Launcher ρ) (program : String) (arguments : List String) : Work ρ Bool := do
  return (← stream L true program arguments).2

/-- Whether a program can be started and succeeds; nothing is passed on. -/
def succeeds (L : Launcher ρ) (program : String) (arguments : List String) : Work ρ Bool :=
  tryCatch (do return (← stream L false program arguments).2) fun _ => pure false

/-- Complains unless a program succeeds. -/
def insist (L : Launcher ρ) (program : String) (arguments : List String)
    (complaint : Complaint) : Work ρ Unit := do
  if !(← echoed L program arguments) then throw complaint

end Work

open Work

variable {ρ : Type} (L : Launcher ρ)

/-! ### Images -/

/-- The images that tests use. -/
def testImages : List String := ["alpine:3.19"]

/-- Whether an image is there: the listing succeeds and is not blank. -/
def hasImage (image : String) : Work ρ Bool := do
  let (lines, succeeded) ← stream L false "docker" ["images", "-q", image]
  return succeeded && !lines.all Text.isBlankText

/-- Fetches an image. -/
def pullImage (image : String) : Work ρ Unit := do
  say ("  Pulling " ++ image)
  insist L "docker" ["pull", image] (.pull image)

/-- Fetches the images that are not there. -/
def ensureImages : Work ρ Unit := do
  say "Checking Docker test images..."
  testImages.forM fun image => do
    print ("  Checking for " ++ image ++ "... ")
    if ← hasImage L image then say "found"
    else
      say "not found"
      pullImage L image
  say "Test images ready\n"

/-- Removes the images; one that cannot be removed is only mentioned. -/
def dropImages : Work ρ Unit := do
  say "Cleaning test container images...\n"
  testImages.forM fun image => do
    say ("Removing " ++ image ++ "...")
    if !(← echoed L "docker" ["rmi", image]) then
      warn ("Warning: Failed to remove image " ++ image)
  say "Test images cleaned"

/-! ### Checks -/

/-- Runs tests for a check. -/
def checkTests (selection : List String) : Work ρ Unit := do
  let arguments := ["test"] ++ selection ++ ["--", "--nocapture"]
  say ("  " ++ commandLine "cargo" arguments ++ "\n")
  let (lines, succeeded) ← stream L true "cargo" arguments
  if !checkPasses succeeded lines then throw (.checkedTests (failureCount lines))
  say "\nAll tests passed"

/-- Checks the format. -/
def checkFormat : Work ρ Unit := insist L "cargo" ["fmt", "--all", "--", "--check"] .format

/-- Checks for lints. -/
def checkLints : Work ρ Unit :=
  insist L "cargo"
    ["clippy", "--workspace", "--all-targets", "--all-features", "--", "-D", "warnings"] .lints

/-- Checks the dependencies. -/
def checkDependencies : Work ρ Unit := insist L "cargo" ["deny", "check"] .dependencies

/-- Runs the unit tests. -/
def checkUnitTests : Work ρ Unit := checkTests L ["--workspace", "--lib", "--bins"]

/-- Runs the tests that need nothing else. -/
def checkIntegrationTests : Work ρ Unit := checkTests L ["--workspace", "--tests"]

/-- Runs the tests that need a container runtime. -/
def checkDockerTests : Work ρ Unit := do
  ensureImages L
  checkTests L ["-p", "container-runtime", "--features", "docker-tests"]

/-- Runs all checks that can be run here. -/
def checkAll : Work ρ Unit := do
  say "Running all CI checks\n"
  say "Checking code formatting..."
  checkFormat L
  say "Format check passed\n"
  say "Running clippy lints..."
  checkLints L
  say "Clippy check passed\n"
  if ← succeeds L "cargo" ["deny", "--version"] then
    say "Running cargo deny..."
    checkDependencies L
    say "Dependency check passed\n"
  say "Running unit tests (no features)..."
  checkUnitTests L
  say "Unit tests passed\n"
  say "Running integration tests..."
  checkIntegrationTests L
  say "Integration tests passed\n"
  if ← succeeds L "docker" ["info"] then
    say "Running docker tests..."
    checkDockerTests L
    say "Docker tests passed\n"
  else say "Docker daemon not reachable, skipping docker tests\n"
  say "All CI checks passed!"

/-- Runs a check. -/
def Check.work : Check → Work ρ Unit
  | all => checkAll L
  | format => checkFormat L
  | lints => checkLints L
  | dependencies => checkDependencies L
  | unitTests => checkUnitTests L
  | integrationTests => checkIntegrationTests L
  | dockerTests => checkDockerTests L

/-! ### Tests -/

namespace TestSelection

/-- Whether the tests selected may need a container runtime. -/
def needsDocker (s : TestSelection) : Bool :=
  s.allFeatures || s.features.any (Text.contains · "docker")

/-- The words that select the tests. -/
def arguments (s : TestSelection) : List String :=
  ["test"] ++ s.package.elim ["--workspace"] (["-p", ·]) ++
    (if s.allFeatures then ["--all-features"] else s.features.elim [] (["--features", ·])) ++
    ["--"] ++ s.filter.toList ++ ["--nocapture"]

/-- Runs the tests selected. -/
def work (s : TestSelection) : Work ρ Unit := do
  say "Running tests\n"
  say ("Command: " ++ commandLine "cargo" s.arguments)
  if s.allFeatures then say "Features: all-features (includes docker-tests)"
  else s.features.toList.forM fun features => say ("Features: " ++ features)
  say ""
  if s.needsDocker then ensureImages L
  let (lines, succeeded) ← stream L true "cargo" s.arguments
  say ("\n" ++ (TestSummary.ofLines lines).text)
  if !summaryPasses succeeded lines then throw .tests

end TestSelection

/-! ### Chores -/

namespace Chore

/-- Does a chore. -/
def work : Chore → Work ρ Unit
  | .check which => which.work L
  | .test selection => selection.work L
  | .pullImages => testImages.forM (pullImage L)
  | .cleanImages => dropImages L

/-- Does a chore: its exit code, and the console with the complaint, if there is one. -/
def run (chore : Chore) (world : ρ) : Nat × Console ρ :=
  match (chore.work L).run.run ⟨world, "", ""⟩ with
  | (.ok (), c) => (0, c)
  | (.error complaint, c) =>
    (1, { c with stderr := c.stderr ++ "Error: " ++ complaint.message ++ "\n" })

end Chore

end Fleet
