import Fleet.Service
import Fleet.Sha256
import Fleet.Text.Utf8

/-!
# Fingerprints

A container carries the fingerprint of the description it was created from. A
pass compares it with the fingerprint of the description as it is now, and
replaces the container if they differ.

The fingerprint covers the fields that decide what a single container looks
like. How many containers there are, and whether they are to be replaced
anyway, are left out. Unlike in the written form of a service every field is
there, so that an empty health check and none at all are told apart.

## Main definitions

* `Service.definition`: The fields that define a container.
* `Service.fingerprint`: Their digest.
-/

namespace Fleet

/-- A value, or `null`. -/
def Json.orNull {α : Type} (write : α → Json) : Option α → Json
  | none => .null
  | some value => write value

namespace Service

/-- The fields that define what each container of the service looks like. -/
def definition (service : Service) : Json :=
  .object [
    ("name", .text service.name),
    ("image", .text service.image),
    ("command", .texts service.command),
    ("environment", .ofDict .text service.environment),
    ("volumes", .texts service.volumes),
    ("networks", .texts service.networks),
    ("depends_on", .ofDict Condition.toJson service.dependsOn),
    ("healthcheck", .orNull Healthcheck.toJson service.healthcheck),
    ("resources", .orNull Limits.toJson service.resources)]

/-- The digest of the text of a service's definition. -/
def fingerprint (service : Service) : String :=
  Sha256.hexDigest (Text.encode service.definition.render)

end Service

end Fleet
