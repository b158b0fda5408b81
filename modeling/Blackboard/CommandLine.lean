import Blackboard.Geometry
import Blackboard.Binary64.Reading

/-!
# The command line of the demonstration

Arguments are read from left to right. The first that cannot be used, or that
asks for help, decides; otherwise all of them together are the options of a run.
-/

namespace Blackboard

/-- What can be set on the command line. -/
structure Options where
  ticks : UInt64 := 5
  /-- Milliseconds between ticks. -/
  intervalMillis : UInt64 := 100
  viewport : Viewport := {}
deriving DecidableEq, Repr

/-- What a command line asks for. -/
inductive Command where
  | run (options : Options)
  | help
  | refuse (message : String)
deriving DecidableEq, Repr

/-- An option with a value. -/
structure Flag where
  name : String
  set? : String → Options → Option Options

namespace CommandLine

/-- Reads a whole number, with an optional plus sign, that an unsigned 64-bit
integer can hold. -/
def uint64? (text : String) : Option UInt64 :=
  let digits := match text.toList with
    | '+' :: rest => rest
    | rest => rest
  if digits.isEmpty || !digits.all Char.isDigit then
    none
  else
    let value := Binary64.digitsValue digits
    if value < UInt64.size then some value.toUInt64 else none

def flag? : String → Option Flag
  | "--ticks" | "-t" =>
    some ⟨"--ticks", fun raw options => (uint64? raw).map fun ticks => { options with ticks }⟩
  | "--interval-ms" =>
    some ⟨"--interval-ms", fun raw options =>
      (uint64? raw).map fun intervalMillis => { options with intervalMillis }⟩
  | "--width" =>
    some ⟨"--width", fun raw options => (Binary64.parse? raw).map fun width =>
      { options with viewport := { options.viewport with width } }⟩
  | "--height" =>
    some ⟨"--height", fun raw options => (Binary64.parse? raw).map fun height =>
      { options with viewport := { options.viewport with height } }⟩
  | _ => none

def asksForHelp (arg : String) : Bool := arg == "--help" || arg == "-h"

/-- What the rest of a command line asks for, after the options so far. -/
def parse (options : Options) : List String → Command
  | [] => .run options
  | [arg] =>
    if asksForHelp arg then
      .help
    else
      match flag? arg with
      | some flag => .refuse s!"{flag.name} requires a value"
      | none => .refuse s!"unknown argument: {arg}"
  | arg :: raw :: rest =>
    if asksForHelp arg then
      .help
    else
      match flag? arg with
      | none => .refuse s!"unknown argument: {arg}"
      | some flag =>
        match flag.set? raw options with
        | some options => parse options rest
        | none => .refuse s!"invalid value for {flag.name}: {raw}"

def helpText : String :=
  "factlog-demo - run sample programs through the FactLog scheduler\n" ++
  "\n" ++
  "USAGE:\n" ++
  "    factlog-demo [OPTIONS]\n" ++
  "\n" ++
  "OPTIONS:\n" ++
  "    -t, --ticks <N>           Ticks to run [default: 5]\n" ++
  "        --interval-ms <MS>    Pause between ticks [default: 100]\n" ++
  "        --width <PX>          Viewport width [default: 1280]\n" ++
  "        --height <PX>         Viewport height [default: 720]\n" ++
  "    -h, --help                Print help information\n"

/-- What is written for a refused command line. -/
def errorText (message : String) : String := s!"error: {message}\n"

end CommandLine

/-- What a command line asks for. -/
def Command.ofArgs (args : List String) : Command := CommandLine.parse {} args

end Blackboard
