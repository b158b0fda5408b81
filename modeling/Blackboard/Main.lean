import Std.Time.DateTime.Timestamp
import Blackboard.CommandLine
import Blackboard.Programs.Samples
import Blackboard.Scheduler
import Blackboard.Telemetry

/-!
# The demonstration

Runs the sample programs for a number of ticks and prints diagnostics, one
report a line: the latest whenever the interval of telemetry has passed, and the
last one of all.
-/

namespace Blackboard.Demonstration

/-- Prints the report that a publisher would hand over next. -/
def printLatest (publisher : Publisher Report) : IO Unit := do
  if let some report := publisher.latest then
    IO.print report.line
    (← IO.getStdout).flush

/-- Runs ticks one after the other. `fired` is when reports were last printed. -/
def runTicks (options : Options) :
    Nat → Scheduler → Publisher Report → (fired : Nat) → IO (Publisher Report)
  | 0, _, publisher, _ => return publisher
  | remaining + 1, scheduler, publisher, fired => do
    let millis := (← Std.Time.Timestamp.now).toMillisecondsSinceUnixEpoch.val
    match scheduler.tick? 0 (Int64.ofInt millis) Programs.samples with
    | none => return publisher
    | some (_, scheduler) =>
      let publisher := (publisher.offer scheduler.diagnostics).receiveAll
      IO.sleep (min options.intervalMillis 0xFFFFFFFF).toUInt32
      let now ← IO.monoMsNow
      if now - fired < scheduler.settings.telemetry.intervalMillis.toNat then
        runTicks options remaining scheduler publisher fired
      else
        printLatest publisher
        runTicks options remaining scheduler (publisher.publish true) now

/-- Does what a command line asks for, and returns the exit code. -/
def run (command : Command) : IO UInt32 := do
  match command with
  | .help =>
    IO.print CommandLine.helpText
    return 0
  | .refuse message =>
    IO.eprint (CommandLine.errorText message)
    return 1
  | .run options =>
    let settings : Settings := { viewport := options.viewport }
    let publisher ← runTicks options options.ticks.toNat (.ofSettings settings)
      (.start settings.telemetry) (← IO.monoMsNow)
    printLatest publisher
    return 0

end Blackboard.Demonstration

def main (args : List String) : IO UInt32 :=
  Blackboard.Demonstration.run (Blackboard.Command.ofArgs args)
