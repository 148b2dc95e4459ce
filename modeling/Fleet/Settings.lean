import Fleet.Error
import Fleet.Json.Basic
import Fleet.Source
import Fleet.Text.Space

/-!
# Settings

How often health is polled, how long a container may take to stop, and which
client program is called. Whatever is left out has a default.

## Main definitions

* `Settings`: The settings of a pass.
* `Settings.read`, `Settings.toJson`: Reading and writing them.
* `Settings.check`: Refusing settings that cannot be meant.
-/

namespace Fleet

/-- The settings of a pass. -/
structure Settings where
  -- Milliseconds between two polls of a dependency's health.
  pollInterval : UInt64
  -- Seconds a container may take to stop, or the runtime's own.
  stopTimeout : Option UInt64
  -- The name of the client program.
  client : String
  deriving DecidableEq

namespace Settings

/-- The settings when none are given. -/
def default : Settings := ⟨500, none, "docker"⟩

/-- Reads settings. -/
def read {m : Type → Type} {σ : Type} [Monad m] [MonadExcept Unit m] (S : Source m σ) (value : σ) :
    m Settings := do
  let fields ← S.fields ["health_poll_interval_ms", "stop_timeout_secs", "docker_binary"] value
  let pollInterval ←
    Source.optional fields "health_poll_interval_ms" S.natural64 default.pollInterval
  let stopTimeout ← S.nullable fields "stop_timeout_secs" S.natural64
  let client ← Source.optional fields "docker_binary" S.text default.client
  return ⟨pollInterval, stopTimeout, client⟩

/-- Writes settings. -/
def toJson (settings : Settings) : Json :=
  .object [
    ("health_poll_interval_ms", .integer settings.pollInterval.toNat),
    ("stop_timeout_secs",
      settings.stopTimeout.elim .null fun seconds => .integer seconds.toNat),
    ("docker_binary", .text settings.client)]

/-- Refuses an interval of zero and a client program without a name. -/
def check (settings : Settings) : Except SettingsError Settings :=
  if settings.pollInterval = 0 then .error .noInterval
  else if Text.isBlankText settings.client then .error .noClient
  else .ok settings

/-- Milliseconds between two polls, at least one. -/
def pollDelay (settings : Settings) : Nat := max settings.pollInterval.toNat 1

/-- Milliseconds a container may take to stop. -/
def stopGrace (settings : Settings) : Option Nat :=
  settings.stopTimeout.map fun seconds => seconds.toNat * 1000

end Settings

end Fleet
