import Blackboard.Geometry

/-!
# Settings

What can be set of the scheduler and of telemetry, with defaults for everything.
-/

namespace Blackboard

structure TelemetrySettings where
  /-- Milliseconds between publications. -/
  intervalMillis : UInt64 := 300
  /-- How many reports can wait before further ones are dropped. -/
  queueCapacity : UInt64 := 16
deriving DecidableEq, Repr, Inhabited

structure Settings where
  /-- How many iterations a tick may take, if there is a limit. -/
  maxSettleIterations : Option UInt64 := some 1024
  /-- The surface that the standard base facts scale placements to. -/
  viewport : Viewport := {}
  telemetry : TelemetrySettings := {}
deriving DecidableEq, Repr, Inhabited

end Blackboard
