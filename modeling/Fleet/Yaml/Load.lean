import Fleet.Service
import Fleet.Settings
import Fleet.Yaml.Source

/-!
# Settings and services written in YAML

Settings are read and then checked, so a text that is no YAML, or does not fit,
is told apart from settings that fit and make no sense. A file is read as UTF-8
first.

## Main definitions

* `Settings.ofYaml`, `Settings.ofFile`: Settings.
* `Service.ofYaml`: A service.
-/

namespace Fleet

/-- Reads what a text in YAML holds. -/
def Yaml.load {α : Type} (read : Source Yaml.Reading Yaml.Node → Yaml.Node → Yaml.Reading α)
    (text : String) : Except Error α :=
  match (Yaml.document? text).bind (·.read? read) with
  | some value => .ok value
  | none => .error .unreadable

/-- Settings written in YAML. -/
def Settings.ofYaml (text : String) : Except Error Settings := do
  let settings ← Yaml.load Settings.read text
  settings.check.mapError .settings

/-- Settings in a file, of which only the bytes are known, or that there is none. -/
def Settings.ofFile : Option (List UInt8) → Except Error Settings
  | none => .error (.file .notFound)
  | some bytes =>
    match Text.decode? bytes with
    | none => .error (.file .notText)
    | some text => Settings.ofYaml text

/-- A service written in YAML. -/
def Service.ofYaml (text : String) : Except Error Service := Yaml.load Service.read text

end Fleet
