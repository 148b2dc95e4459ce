import Fleet.Container.Request

/-!
# Failures of a container runtime

The ways a request can fail, and the words for each.

## Main definitions

* `LaunchError`: Why a program could not be started.
* `Refusal`: Why a runtime refused a request.
* `RuntimeError`: Why a request failed.
-/

namespace Fleet

/-- Why a program could not be started. -/
inductive LaunchError
  -- There is no such program.
  | notFound
  -- A null character cannot be passed to a program.
  | nullCharacter
  deriving DecidableEq

/-- The operating system's words. -/
def LaunchError.message : LaunchError → String
  | notFound => "No such file or directory (os error 2)"
  | nullCharacter => "nul byte found in provided data"

/-- Why a runtime refused a request. -/
inductive Refusal
  -- It was told to, for the reason given.
  | told (reason : String)
  -- Another container has the name.
  | nameInUse (name : String)
  -- The container is running.
  | isRunning (id : String)
  deriving DecidableEq

/-- The reason of a refusal in words. -/
def Refusal.message : Refusal → String
  | told reason => reason
  | nameInUse name => "container name \"" ++ name ++ "\" is already in use"
  | isRunning id => "container " ++ id ++ " is running"

/-- Why a request failed. -/
inductive RuntimeError
  -- The client program could not be started.
  | launch (command : String) (cause : LaunchError)
  -- The client program failed; there is no exit code if a signal ended it.
  | failed (command : String) (code : Option Int) (complaint : String)
  -- The client program printed something that makes no sense.
  | unreadable
  -- There is no such container.
  | notFound (id : String)
  -- The runtime refused.
  | refused (verb : Verb) (refusal : Refusal)
  deriving DecidableEq

/-- An exit code in words. -/
def exitCodeText : Option Int → String
  | none => "None"
  | some code => "Some(" ++ toString code ++ ")"

/-- A failed request in words. -/
def RuntimeError.message : RuntimeError → String
  | launch command cause => "failed to run `" ++ command ++ "`: " ++ cause.message
  | failed command code complaint =>
    "`" ++ command ++ "` failed with exit code " ++ exitCodeText code ++ ": " ++ complaint
  | unreadable => "failed to parse runtime output"
  | notFound id => "container not found: " ++ id
  | refused verb refusal => verb.title ++ " rejected: " ++ refusal.message

end Fleet
