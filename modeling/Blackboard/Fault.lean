import Blackboard.Identity

/-!
# What can go wrong

Nothing that a program does stops the engine. What is malformed is refused with
a `Refusal`; what fails while programs run is a `Failure`; a `Fault` is either,
or a fault of the engine itself. Each has one text, given here and nowhere else.
-/

namespace Blackboard

/-- Why a claim, a rule or a template is not accepted. -/
inductive Refusal where
  /-- A claim with open arguments is no fact. -/
  | variableInFact (name : String) (count : Nat)
  | emptyClaimName
  /-- A template has to say what it would like to know. -/
  | missingCaptureSlot (name : String)
  /-- A rule that waits for nothing. -/
  | emptyRule
deriving DecidableEq, Repr

/-- What went wrong while programs ran. -/
inductive Failure where
  | callbackFailed (message : String)
  | callbackPanicked (message : String)
  | registrationFailed (program : ProgramId) (message : String)
  | settleLimitExceeded (limit : Nat)
  | telemetryUnavailable (message : String)
deriving DecidableEq, Repr

/-- Everything that can go wrong. -/
inductive Fault where
  | refusal (reason : Refusal)
  | failure (cause : Failure)
  | internal (message : String)
deriving DecidableEq, Repr

def Refusal.message : Refusal → String
  | variableInFact name count =>
    s!"Claim '{name}' contains {count} variable argument(s) and cannot be stored as a fact"
  | emptyClaimName => "Claim name cannot be empty"
  | missingCaptureSlot name =>
    s!"Capture template '{name}' has no capture slot (a variable prefixed with '?')"
  | emptyRule => "Rule must match at least one pattern"

def Failure.message : Failure → String
  | callbackFailed message => s!"Rule callback failed: {message}"
  | callbackPanicked message => s!"Rule callback panicked: {message}"
  | registrationFailed program message => s!"Program '{program}' failed to register: {message}"
  | settleLimitExceeded limit => s!"Tick did not settle after {limit} iterations"
  | telemetryUnavailable message => s!"Telemetry unavailable: {message}"

namespace Fault

/-- The text without the word for the kind of fault. -/
def detail : Fault → String
  | refusal reason => reason.message
  | failure cause => cause.message
  | internal message => message

def message : Fault → String
  | refusal reason => s!"Validation error: {reason.message}"
  | failure cause => s!"Execution error: {cause.message}"
  | internal message => s!"Internal error: {message}"

/-- The name of the kind of a fault. -/
def kind : Fault → String
  | refusal (.variableInFact _ _) => "VariableInFact"
  | refusal .emptyClaimName => "EmptyClaimName"
  | refusal (.missingCaptureSlot _) => "MissingCaptureSlot"
  | refusal .emptyRule => "EmptyRule"
  | failure (.callbackFailed _) => "CallbackFailed"
  | failure (.callbackPanicked _) => "CallbackPanicked"
  | failure (.registrationFailed _ _) => "RegistrationFailed"
  | failure (.settleLimitExceeded _) => "SettleLimitExceeded"
  | failure (.telemetryUnavailable _) => "TelemetryUnavailable"
  | internal _ => "Internal"

def isRefusal : Fault → Bool
  | refusal _ => true
  | _ => false

def isFailure : Fault → Bool
  | failure _ => true
  | _ => false

def isInternal : Fault → Bool
  | internal _ => true
  | _ => false

/-- The fault with which a callback gives up. -/
def callback (message : String) : Fault := .failure (.callbackFailed message)

end Fault

end Blackboard
