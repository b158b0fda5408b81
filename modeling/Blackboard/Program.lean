import Blackboard.Blake3
import Blackboard.Geometry
import Blackboard.World

/-!
# Programs

A program has a name, the hash of its source text and a registrar, which runs
once when the program starts or its source has changed. What a registrar
contributes is static. A registrar that fails leaves behind one static error,
and what it had contributed before.
-/

namespace Blackboard

/-- What tells one version of a program from another: a hash of its source text. -/
structure CodeHash where
  text : String
deriving DecidableEq, Repr, Inhabited

/-- The hash of a source text. -/
def CodeHash.ofSource (source : String) : CodeHash := ⟨Blake3.hexadecimal source⟩

/-- A program that is to run. -/
structure Program where
  id : ProgramId
  codeHash : CodeHash
  /-- Where the program lies, in fractions of the surface. -/
  placement : Option Placement := none
  /-- Where the program's own debugger listens. -/
  debugUrl : Option String := none
  registrar : Context → Reaction

namespace Failure

/-- The callback's own words, where a failure has them. -/
def cause : Failure → String
  | callbackFailed message => message
  | callbackPanicked message => message
  | failure => failure.message

end Failure

namespace Program

/-- The program of a source text. -/
def ofSource (id : ProgramId) (source : String) (registrar : Context → Reaction) : Program :=
  { id, codeHash := .ofSource source, registrar }

/-- The context in which a program that starts in a tick is registered. -/
def context (program : Program) (tick : Nat) : Context where
  source := program.id
  isDynamic := false
  origin := .registration tick program.id

/-- The error that a failed registration leaves behind. -/
def failureEntry (program : Program) (failure : Failure) : ErrorEntry where
  source := program.id
  isDynamic := false
  message := (Failure.registrationFailed program.id failure.cause).message
  site := none

/-- What a program contributes when it starts in a tick. -/
def registration (program : Program) (tick : Nat) : World :=
  let context := program.context tick
  let reaction := program.registrar context
  let made := context.contribution reaction.actions
  match reaction.outcome.failure? with
  | some failure => made ++ World.ofError (program.failureEntry failure)
  | none => made

/-- The first program of each name. -/
def firstById : List Program → List Program
  | [] => []
  | program :: rest => program :: (firstById rest).filter fun other => other.id != program.id

end Program

end Blackboard
