import Fleet.Text.Search

/-!
# The command line of the chores

A chore is named by one or two words; running tests takes options. An option
with a value is written with the value behind it, in a word of its own or in
the same one, with or without an equals sign. A value in a word of its own does
not begin with a hyphen, unless it is nothing but a hyphen. The only word that
is no option is the filter, and it can stand anywhere. After two hyphens
everything is a filter.

Nothing is given twice, and nothing is guessed: a word that is not understood
makes the whole line one that is not.

## Main definitions

* `Chore`: What can be asked for.
* `Chore.parse?`: The chore a command line asks for.
-/

namespace Fleet

/-- A check of the sources. -/
inductive Check
  -- All of them.
  | all
  | format
  | lints
  -- The dependencies, their licences and advisories.
  | dependencies
  | unitTests
  | integrationTests
  -- The tests that need a container runtime.
  | dockerTests
  deriving DecidableEq

/-- Which tests to run. -/
structure TestSelection where
  package : Option String
  features : Option String
  allFeatures : Bool
  -- Only tests with this in their name.
  filter : Option String
  deriving DecidableEq

/-- Something that can be asked for. -/
inductive Chore
  | check (check : Check)
  | test (selection : TestSelection)
  -- Fetching the images that tests use.
  | pullImages
  -- Removing the images that tests use.
  | cleanImages
  deriving DecidableEq

namespace TestSelection

/-- Nothing in particular. -/
def none : TestSelection := ⟨.none, .none, false, .none⟩

/-- Gives the package, if it has not been given. -/
def withPackage (s : TestSelection) (value : String) : Option TestSelection :=
  if s.package.isSome then .none else some { s with package := value }

/-- Gives the features, if they have not been given. -/
def withFeatures (s : TestSelection) (value : String) : Option TestSelection :=
  if s.features.isSome then .none else some { s with features := value }

/-- Gives the filter, if it has not been given. -/
def withFilter (s : TestSelection) (value : String) : Option TestSelection :=
  if s.filter.isSome then .none else some { s with filter := value }

/-- Asks for all features, if they have not been asked for. -/
def withAllFeatures (s : TestSelection) : Option TestSelection :=
  if s.allFeatures then .none else some { s with allFeatures := true }

/-- How the value of an option is taken in. -/
abbrev Setter := TestSelection → String → Option TestSelection

/-- The option a word begins with, and what follows it in the word: nothing if the value is the
    next word. -/
def option? (word : List Char) : Option (Setter × Option (List Char)) :=
  let named (name : String) (setter : Setter) : Option (Setter × Option (List Char)) :=
    if word = name.toList then some (setter, .none)
    else
      match word.drop name.length with
      | '=' :: value =>
        if word.take name.length = name.toList then some (setter, some value) else .none
      | _ => .none
  let lettered (letter : Char) (setter : Setter) : Option (Setter × Option (List Char)) :=
    match word with
    | ['-', c] => if c = letter then some (setter, .none) else .none
    | '-' :: c :: '=' :: value => if c = letter then some (setter, some value) else .none
    | '-' :: c :: value => if c = letter then some (setter, some value) else .none
    | _ => .none
  (named "--package" withPackage).or <| (named "--features" withFeatures).or <|
    (lettered 'p' withPackage).or (lettered 'f' withFeatures)

/-- Whether a word would be taken for an option. -/
def looksLikeOption (word : String) : Bool := Text.begins word "-" && word != "-"

/-- Takes in words none of which is an option. -/
def readFilters (s : TestSelection) : List String → Option TestSelection
  | [] => some s
  | word :: rest => (s.withFilter word).bind fun s => readFilters s rest

/-- Takes in words. -/
def readWords (s : TestSelection) : List String → Option TestSelection
  | [] => some s
  | word :: rest =>
    if word = "--" then s.readFilters rest
    else if !looksLikeOption word then (s.withFilter word).bind fun s => readWords s rest
    else if word = "--all-features" then s.withAllFeatures.bind fun s => readWords s rest
    else
      match option? word.toList, rest with
      | some (setter, some value), rest =>
        (setter s (String.ofList value)).bind fun s => readWords s rest
      | some (setter, .none), value :: rest =>
        if looksLikeOption value then .none else (setter s value).bind fun s => readWords s rest
      | _, _ => .none

end TestSelection

namespace Check

/-- The check of a name. -/
def ofName? : String → Option Check
  | "all" => some all
  | "fmt-check" => some format
  | "clippy" => some lints
  | "deny" => some dependencies
  | "unit-tests" => some unitTests
  | "integration-tests" => some integrationTests
  | "docker-tests" => some dockerTests
  | _ => none

end Check

namespace Chore

/-- Nothing may follow but the mark that ends options. -/
def alone (rest : List String) (chore : Chore) : Option Chore :=
  if rest = [] ∨ rest = ["--"] then some chore else none

/-- The chore a command line asks for. -/
def parse? : List String → Option Chore
  | "ci" :: name :: rest => (Check.ofName? name).bind fun check => alone rest (.check check)
  | "test" :: rest => (TestSelection.none.readWords rest).map .test
  | "docker" :: "pull-test-images" :: rest => alone rest pullImages
  | "docker" :: "clean-test-images" :: rest => alone rest cleanImages
  | _ => none

end Chore

end Fleet
