import Fleet.Container.Error
import Fleet.Text.Quoted

/-!
# Failures of a pass

Why services could not be brought in line with their description. Failures of
the runtime pass through unchanged.

## Main definitions

* `NumberError`: An instance number that cannot be read or given.
* `SettingsError`: A description or a setting that makes no sense.
* `Error`: Why a pass failed.
* `Error.message`: A failure in words.
-/

namespace Fleet

/-- An instance number that cannot be read or given. -/
inductive NumberError
  -- A container's label does not hold a number.
  | malformed (container label : String)
  -- A container has the greatest number there is.
  | exhausted (container : String) (number : Nat)
  -- Of `count` new numbers from `next` on, the one at `offset` would be too large.
  | beyond (next offset count : Nat)
  deriving DecidableEq

/-- What is to blame for a number that cannot be read or given. -/
def NumberError.container : NumberError → String
  | malformed container _ => container
  | exhausted container _ => container
  | beyond _ offset count => "instance " ++ toString (offset + 1) ++ " of " ++ toString count

/-- The value that is no instance number. -/
def NumberError.value : NumberError → String
  | malformed _ label => label
  | exhausted _ number => toString number ++ " (no instance number left above it)"
  | beyond next offset _ => toString next ++ " + " ++ toString offset

/-- A description or a setting that makes no sense. -/
inductive SettingsError
  -- Two services have the same name.
  | duplicateService (service : String)
  -- A service depends on one that is not there.
  | unknownDependency (service dependency : String)
  -- Services depend on each other in a circle.
  | circular
  -- Health would be polled without a pause.
  | noInterval
  -- The client program has no name.
  | noClient
  -- Any other complaint.
  | other (complaint : String)
  deriving DecidableEq

/-- A setting that makes no sense, in words. -/
def SettingsError.message : SettingsError → String
  | duplicateService service => "Service '" ++ service ++ "' is declared more than once"
  | unknownDependency service dependency =>
    "Service '" ++ service ++ "' depends on unknown service '" ++ dependency ++ "'"
  | circular => "Circular dependency detected"
  | noInterval => "health_poll_interval_ms must be greater than zero"
  | noClient => "docker_binary must not be empty"
  | other complaint => complaint

/-- Why a file could not be read. -/
inductive FileError
  -- There is no such file.
  | notFound
  -- Its bytes are not UTF-8.
  | notText
  deriving DecidableEq

/-- A file that could not be read, in words. -/
def FileError.message : FileError → String
  | notFound => "No such file or directory (os error 2)"
  | notText => "stream did not contain valid UTF-8"

/-- Why a pass failed. -/
inductive Error
  -- A request to the runtime failed.
  | runtime (cause : RuntimeError)
  -- An instance number cannot be read or given.
  | number (cause : NumberError)
  -- A container of a service that others wait for has no health check.
  | noHealthcheck (service : String)
  -- A description or a setting makes no sense.
  | settings (cause : SettingsError)
  -- A text is not of the form it has to be.
  | unreadable
  -- A file could not be read.
  | file (cause : FileError)
  -- The caller, or a failure beside it, put an end to the work.
  | cancelled
  deriving DecidableEq

/-- A failure in words. -/
def Error.message : Error → String
  | runtime cause => cause.message
  | number cause =>
    "container " ++ cause.container ++ " has invalid container number label " ++
      Text.quoted cause.value
  | noHealthcheck service =>
    "container for service " ++ Text.quoted service ++ " has no healthcheck configured"
  | settings cause => "Configuration error: " ++ cause.message
  | unreadable => "YAML error"
  | file cause => "IO error: " ++ cause.message
  | cancelled => "operation cancelled"

end Fleet
