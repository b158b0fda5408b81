import Blackboard.Settings
import Blackboard.Wire.Geometry

/-!
# Settings as documents

Every setting can be left out when settings are read.
-/

namespace Blackboard

namespace TelemetrySettings

def encode (settings : TelemetrySettings) : Json :=
  .object [("interval_ms", .int settings.intervalMillis.toNat),
    ("queue_capacity", .int settings.queueCapacity.toNat)]

def decode? (document : Json) : Option TelemetrySettings := do
  let fields ← document.fields? ["interval_ms", "queue_capacity"]
  let standard : TelemetrySettings := {}
  return { intervalMillis := ← fields.optional "interval_ms" Json.uint64? standard.intervalMillis
           queueCapacity := ← fields.optional "queue_capacity" Json.uint64? standard.queueCapacity }

end TelemetrySettings

namespace Settings

def encode (settings : Settings) : Json :=
  let limit := match settings.maxSettleIterations with
    | some limit => Json.int limit.toNat
    | none => .null
  .object [("max_settle_iterations", limit), ("viewport", settings.viewport.toJson),
    ("telemetry", settings.telemetry.encode)]

def decode? (document : Json) : Option Settings := do
  let fields ← document.fields? ["max_settle_iterations", "viewport", "telemetry"]
  let standard : Settings := {}
  return { maxSettleIterations := ← fields.optional "max_settle_iterations"
             (Json.nullable? Json.uint64?) standard.maxSettleIterations
           viewport := ← fields.optional "viewport" Viewport.ofJson? standard.viewport
           telemetry := ← fields.optional "telemetry" TelemetrySettings.decode? standard.telemetry }

end Settings

end Blackboard
