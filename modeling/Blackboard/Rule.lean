import Blackboard.Match

/-!
# Rules and callbacks

A rule waits for facts, or for the want of one, and then calls back into the
program that registered it. A callback is a function from its context and the
matches it is handed to a `Reaction`: a list of actions and an outcome. What the
actions do to the world is decided elsewhere; a callback that fails has still
performed the actions that came before.

There are three kinds of rules. An *each* rule is handed the matches of its
patterns one at a time, a *grouped* rule all at once, possibly none, and a
*capture* rule those recorded for missing facts.
-/

namespace Blackboard

/-- What a registrar or a callback is told about itself. -/
structure Context where
  /-- The program on whose behalf it runs. -/
  source : ProgramId
  /-- What it makes lasts for one tick only. -/
  isDynamic : Bool
  /-- Where it runs. What it makes is told apart by this place. -/
  origin : Origin

/-- How a callback ends. -/
inductive Outcome where
  | done
  | failed (fault : Fault)
  /-- It broke down, leaving a text or something that is no text. -/
  | panicked (message : Option String)

namespace Outcome

/-- The failure that an outcome counts as. -/
def failure? : Outcome → Option Failure
  | done => none
  | failed (.failure cause) => some cause
  | failed fault => some (.callbackFailed fault.message)
  | panicked message => some (.callbackPanicked (message.getD "non-string panic payload"))

end Outcome

mutual

/-- What a callback asks for. -/
inductive Action where
  /-- Makes a claim; owner and persistence are those of the callback. -/
  | assert (claim : Claim)
  | register (body : RuleBody)
  | log (document : Json)
  | report (message : String)

/-- What a rule waits for and what it calls. -/
inductive RuleBody where
  | each (patterns : List Claim) (callback : Context → Match → Reaction)
  | grouped (patterns : List Claim) (callback : Context → List Match → Reaction)
  | capture (pattern : Claim) (callback : Context → Match → Reaction)

/-- What a callback does, in order, and how it ends. -/
structure Reaction where
  actions : List Action
  outcome : Outcome

end

/-- The kind of a rule. -/
inductive RuleKind where
  | each
  | grouped
  | capture
deriving DecidableEq, Repr

namespace RuleKind

def name : RuleKind → String
  | each => "each"
  | grouped => "grouped"
  | capture => "capture"

end RuleKind

namespace RuleBody

def kind : RuleBody → RuleKind
  | each _ _ => .each
  | grouped _ _ => .grouped
  | capture _ _ => .capture

/-- The patterns of a rule. A capture rule has one, its template. -/
def patterns : RuleBody → List Claim
  | each patterns _ => patterns
  | grouped patterns _ => patterns
  | capture pattern _ => [pattern]

/-- Why a rule is refused: it waits for nothing, or its template has no slot. -/
def refusal? : RuleBody → Option Refusal
  | each patterns _ => if patterns.isEmpty then some .emptyRule else none
  | grouped patterns _ => if patterns.isEmpty then some .emptyRule else none
  | capture pattern _ =>
    if pattern.hasSlot then none else some (.missingCaptureSlot pattern.name)

end RuleBody

namespace Reaction

/-- Does nothing. -/
def idle : Reaction := ⟨[], .done⟩

/-- Performs actions that were worked out beforehand, or fails before the first. -/
def ofExcept : Except Fault (List Action) → Reaction
  | .ok actions => ⟨actions, .done⟩
  | .error fault => ⟨[], .failed fault⟩

end Reaction

/-- A registered rule. -/
structure Rule where
  /-- Where it was registered, which identifies it. -/
  id : Origin
  body : RuleBody
  source : ProgramId
  isDynamic : Bool

namespace Rule

def kind (rule : Rule) : RuleKind := rule.body.kind

def patterns (rule : Rule) : List Claim := rule.body.patterns

end Rule

end Blackboard
