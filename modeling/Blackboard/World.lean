import Blackboard.Rule

/-!
# The world

The world is what programs have contributed: claims, rules, errors and logs.
Every entry belongs to a program and is either static, made while its program
was registered, or dynamic, made by a callback. Contributions are worlds
themselves, and the world grows by appending them.
-/

namespace Blackboard

/-- An error that concerns a program. -/
structure ErrorEntry where
  source : ProgramId
  isDynamic : Bool
  message : String
  /-- The rule that failed, or the place where the error was reported. -/
  site : Option Origin
deriving DecidableEq, Repr

/-- Something that a program wrote down. -/
structure LogEntry where
  source : ProgramId
  isDynamic : Bool
  document : Json

/-- Claims, rules, errors and logs, each in the order in which they were made. -/
structure World where
  claims : List Claim := []
  rules : List Rule := []
  errors : List ErrorEntry := []
  logs : List LogEntry := []

namespace World

instance : EmptyCollection World := ⟨{}⟩
instance : Inhabited World := ⟨∅⟩

instance : Append World where
  append w v :=
    { claims := w.claims ++ v.claims
      rules := w.rules ++ v.rules
      errors := w.errors ++ v.errors
      logs := w.logs ++ v.logs }

/-- Contributions one after the other. -/
def concat (worlds : List World) : World where
  claims := worlds.flatMap claims
  rules := worlds.flatMap rules
  errors := worlds.flatMap errors
  logs := worlds.flatMap logs

/-- The contribution that consists of one error. -/
def ofError (entry : ErrorEntry) : World := { errors := [entry] }

/-- Keeps the entries whose owner and persistence satisfy a condition. -/
def filter (world : World) (keep : ProgramId → Bool → Bool) : World where
  claims := world.claims.filter fun claim => keep claim.source claim.isDynamic
  rules := world.rules.filter fun rule => keep rule.source rule.isDynamic
  errors := world.errors.filter fun entry => keep entry.source entry.isDynamic
  logs := world.logs.filter fun entry => keep entry.source entry.isDynamic

/-- Removes everything that a program owns. -/
def purge (world : World) (source : ProgramId) : World :=
  world.filter fun owner _ => owner != source

/-- Keeps the static entries. -/
def retainStatic (world : World) : World := world.filter fun _ isDynamic => !isDynamic

def errorsOf (world : World) (source : ProgramId) : List ErrorEntry :=
  world.errors.filter fun entry => entry.source == source

def logsOf (world : World) (source : ProgramId) : List LogEntry :=
  world.logs.filter fun entry => entry.source == source

end World

namespace Context

/-- The claim that an action makes, owned by the program of the context. -/
def claim? (context : Context) : Action → Option Claim
  | .assert claim =>
    some { claim with source := context.source, isDynamic := context.isDynamic }
  | _ => none

/-- The rule that an action registers, unless it is refused. -/
def rule? (context : Context) (index : Nat) : Action → Option Rule
  | .register body =>
    if body.refusal?.isNone then
      some { id := .item context.origin index, body, source := context.source,
             isDynamic := context.isDynamic }
    else
      none
  | _ => none

/-- The error that an action reports. -/
def error? (context : Context) (index : Nat) : Action → Option ErrorEntry
  | .report message =>
    some { source := context.source, isDynamic := context.isDynamic, message,
           site := some (.item context.origin index) }
  | _ => none

/-- The entry that an action logs. -/
def log? (context : Context) : Action → Option LogEntry
  | .log document =>
    some { source := context.source, isDynamic := context.isDynamic,
           document := document.canonical }
  | _ => none

/-- What the actions of a callback add to the world. -/
def contribution (context : Context) (actions : List Action) : World where
  claims := actions.filterMap context.claim?
  rules := actions.zipIdx.filterMap fun (action, index) => context.rule? index action
  errors := actions.zipIdx.filterMap fun (action, index) => context.error? index action
  logs := actions.filterMap context.log?

/-- The wish of the program of a context. -/
def wish (context : Context) (name : String) (values : List Value) : Action :=
  .assert (Claim.wish context.source name (values.map .val))

end Context

end Blackboard
