import Fleet.Binary64.Layout
import Fleet.Container.Request

/-!
# Arguments of the docker client

Each request as the words the docker client is called with. Values are passed
as words of their own behind their option, and everything after the image
belongs to the command, so that no value can be taken for an option.

A health check is passed as one line for the shell. A check given as words to
be run directly is therefore quoted word by word; one given as a line already
is passed as it is.

## Main definitions

* `Docker.shellQuote`: A word as the shell reads it back.
* `Docker.healthOptions`: The options of a health check.
* `Docker.createArguments`: The words that create a container.
* `Docker.inspectArguments`: The words that inspect containers.
* `Docker.arguments`: The words of a request that is a single call.
-/

namespace Fleet.Docker

/-- Numbers have no exponent and no needless point; a tie goes up. -/
def layout : NumberLayout where
  least := none
  greatest := none
  wholeFraction := false
  tie := .up
  infinite := "inf"
  undefined := "NaN"
  signedInfinity := true

/-- A character the shell leaves alone. -/
def isPlain (c : Char) : Bool := c.isAlphanum || "_-./:=@%+,".toList.contains c

/-- A character as it stands between single quotes. -/
def quoteChar (c : Char) : List Char := if c = '\'' then ['\'', '\\', '\'', '\''] else [c]

/-- A word as the shell reads it back: as it is if every character is plain, else between
    single quotes. -/
def shellQuote (word : String) : String :=
  if !word.isEmpty && word.toList.all isPlain then word
  else String.ofList (['\''] ++ word.toList.flatMap quoteChar ++ ['\''])

/-- Words with blanks between them. -/
def spaced (words : List String) : String := " ".intercalate words

/-- An option with its value. -/
def valued (option value : String) : List String := [option, value]

/-- An option with its value, if there is one. -/
def valuedSome {α : Type} (option : String) (write : α → String) : Option α → List String
  | none => []
  | some value => valued option (write value)

/-- A number of seconds. -/
def seconds (n : UInt64) : String := toString n.toNat ++ "s"

/-- The line for the shell that a health check is, or none if it is turned off. -/
def healthLine : List String → Option String
  | ["NONE"] => none
  | "CMD-SHELL" :: rest => some (spaced rest)
  | "CMD" :: rest => some (spaced (rest.map shellQuote))
  | words => some (spaced words)

/-- The options of a health check; one with an empty line has none. -/
def healthOptions (check : Healthcheck) : List String :=
  match healthLine check.test with
  | none => ["--no-healthcheck"]
  | some line =>
    if line.isEmpty then []
    else
      valued "--health-cmd" line ++ valuedSome "--health-interval" seconds check.interval ++
        valuedSome "--health-timeout" seconds check.timeout ++
        valuedSome "--health-retries" (fun n => toString n.toNat) check.retries

/-- The options of limits. -/
def limitOptions (limits : Limits) : List String :=
  valuedSome "--cpus" layout.write limits.cpus ++ valuedSome "--memory" id limits.memory

/-- An option for each entry of a dictionary. -/
def entryOptions (option : String) (dict : Dict String) : List String :=
  dict.entries.flatMap fun entry => valued option (entry.1 ++ "=" ++ entry.2)

/-- The words that create a container. -/
def createArguments (b : Blueprint) : List String :=
  ["create"] ++ valued "--name" b.name ++ entryOptions "--label" b.labels ++
    entryOptions "--env" b.environment ++ b.volumes.flatMap (valued "--volume") ++
    b.resources.elim [] limitOptions ++ b.healthcheck.elim [] healthOptions ++
    [b.image] ++ b.command

/-- The words that list the ids of the containers with the labels given. -/
def listArguments (filter : LabelFilter) : List String :=
  ["ps", "-a", "-q", "--no-trunc"] ++
    filter.pairs.flatMap fun pair => valued "--filter" ("label=" ++ pair.1 ++ "=" ++ pair.2)

/-- The words that inspect containers. -/
def inspectArguments (ids : List String) : List String := ["inspect", "--type", "container"] ++ ids

/-- The words of a request; of a listing, those of its first call. -/
def arguments : Request → List String
  | .list filter => listArguments filter
  | .inspect id => inspectArguments [id]
  | .create blueprint => createArguments blueprint
  | .start id => ["start", id]
  | .stop id grace =>
    ["stop"] ++ valuedSome "--time" (fun milliseconds => toString (milliseconds / 1000)) grace ++
      [id]
  | .rename id name => ["rename", id, name]
  | .remove id => ["rm", id]
  | .connect network id aliases =>
    ["network", "connect"] ++ aliases.flatMap (valued "--alias") ++ [network, id]

end Fleet.Docker
