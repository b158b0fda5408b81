import Blackboard.World

/-!
# Scripts

A script is a program written down as data: a list of steps for a registrar or
a callback. Steps make claims, register rules with scripts of their own, log,
report, branch and fail; the first step that fails ends the script. A script
sees the match it was called with and the list of all matches.

A structured value that is written in a script is made anew whenever the script
comes to it. In the patterns of a rule that is when the rule is registered.
-/

namespace Blackboard

/-- A value as it is written in a script. -/
inductive Literal where
  | value (value : Value)
  /-- A structured value that is still to be made. -/
  | fresh (payload : Payload)

/-- An argument of a claim as it is written in a script. -/
inductive ArgDraft where
  | val (literal : Literal)
  | var (name : String)

/-- A claim as it is written in a script. -/
structure ClaimDraft where
  name : String
  args : List ArgDraft
  source : ProgramId := .core
  isDynamic : Bool := false

/-- Something that a script computes a value from. -/
inductive Term where
  | literal (literal : Literal)
  /-- The value of a variable, which has to be bound. -/
  | get (variableName : String)
  /-- The whole number of a variable, or zero, increased by a constant. -/
  | plus (variableName : String) (increment : Int64)
  /-- The text of a variable, or null. -/
  | text (variableName : String)
  /-- The number of a variable, or null. -/
  | number (variableName : String)
  /-- How many matches there are. -/
  | count
  /-- The program that the script belongs to. -/
  | source
  | isDynamic

/-- A question about two values. -/
inductive Comparison where
  | equal
  /-- The order of whole numbers; anything else counts as zero. -/
  | less
deriving DecidableEq, Repr

/-- What a rule of a script waits for. -/
inductive Trigger where
  | each (patterns : List ClaimDraft)
  | grouped (patterns : List ClaimDraft)
  | capture (pattern : ClaimDraft)

/-- A step of a script. -/
inductive Step where
  | claim (name : String) (args : List Term)
  | wish (name : String) (args : List Term)
  | assert (claim : ClaimDraft)
  | logMatch
  | logTerm (term : Term)
  | logDocument (document : Json)
  | report (message : String)
  | fail (fault : Fault)
  /-- Breaks down, leaving a text or something that is no text. -/
  | panic (message : Option String)
  | branch (test : Comparison) (a b : Term) (yes no : List Step)
  /-- Runs steps once for each of all matches. -/
  | each (body : List Step)
  /-- Registers a rule. A refusal ends the script, unless it is logged instead. -/
  | register (trigger : Trigger) (body : List Step) (logsRefusal : Bool)

namespace Script

/-- What a script sees. -/
structure Frame where
  context : Context
  /-- The match that the script was called with. -/
  current : Match
  all : List Match

/-- How far a script has come. -/
structure State where
  actions : Array Action := #[]
  outcome : Outcome := .done
  /-- How many structured values were made. -/
  made : Nat := 0

namespace State

def isDone (state : State) : Bool :=
  match state.outcome with
  | .done => true
  | _ => false

def act (state : State) (action : Action) : State :=
  { state with actions := state.actions.push action }

def stop (state : State) (outcome : Outcome) : State := { state with outcome }

/-- Goes on with a value, unless working it out has failed. -/
def proceed {α : Type} (state : State) (result : Except Fault (α × Nat))
    (next : α → State → State) : State :=
  match result with
  | .ok (value, made) => next value { state with made }
  | .error fault => state.stop (.failed fault)

end State

end Script

namespace Literal

/-- The value, and how many were made with it. -/
def realize (place : Origin) (made : Nat) : Literal → Value × Nat
  | value v => (v, made)
  | fresh payload => (.structured (.item place made) payload, made + 1)

end Literal

namespace ArgDraft

def realize (place : Origin) (made : Nat) : ArgDraft → Arg × Nat
  | val l =>
    let (value, made) := l.realize place made
    (.val value, made)
  | var name => (.var name, made)

def realizeAll (place : Origin) : Nat → List ArgDraft → List Arg × Nat
  | made, [] => ([], made)
  | made, draft :: rest =>
    let (arg, made) := draft.realize place made
    let (args, made) := realizeAll place made rest
    (arg :: args, made)

end ArgDraft

namespace ClaimDraft

/-- The claim, and how many structured values were made with it. -/
def realize (place : Origin) (made : Nat) (draft : ClaimDraft) : Claim × Nat :=
  let (args, made) := ArgDraft.realizeAll place made draft.args
  ({ name := draft.name, args, source := draft.source, isDynamic := draft.isDynamic }, made)

def realizeAll (place : Origin) : Nat → List ClaimDraft → List Claim × Nat
  | made, [] => ([], made)
  | made, draft :: rest =>
    let (claim, made) := draft.realize place made
    let (claims, made) := realizeAll place made rest
    (claim :: claims, made)

end ClaimDraft

namespace Term

/-- The value of a term, and how many structured values were made with it. -/
def eval (frame : Script.Frame) (made : Nat) : Term → Except Fault (Value × Nat)
  | literal l => .ok (l.realize frame.context.origin made)
  | get x => (frame.current.require x).map fun value => (value, made)
  | plus x increment =>
    (frame.current.require x).map fun value => (.int (value.int?.getD 0 + increment), made)
  | text x => .ok ((frame.current.text? x).elim .null .text, made)
  | number x => .ok ((frame.current.number? x).elim .null .float, made)
  | count => .ok (.int (Int64.ofNat frame.all.length), made)
  | source => .ok (.ofProgramId frame.context.source, made)
  | isDynamic => .ok (.bool frame.context.isDynamic, made)

/-- The values of terms, from left to right. -/
def evalAll (frame : Script.Frame) : Nat → List Term → Except Fault (List Value × Nat)
  | made, [] => .ok ([], made)
  | made, term :: rest => do
    let (value, made) ← term.eval frame made
    let (values, made) ← evalAll frame made rest
    return (value :: values, made)

/-- The values of two terms. -/
def evalPair (frame : Script.Frame) (made : Nat) (a b : Term) :
    Except Fault ((Value × Value) × Nat) := do
  let (v, made) ← a.eval frame made
  let (w, made) ← b.eval frame made
  return ((v, w), made)

end Term

namespace Comparison

def holds (test : Comparison) (v w : Value) : Bool :=
  match test with
  | equal => v == w
  | less => v.int?.getD 0 < w.int?.getD 0

end Comparison

namespace Trigger

/-- The rule that a script registers. The script of the rule sees the match it
is called with as the only one; that of a grouped rule sees all, and none in
particular. -/
def realize (place : Origin) (made : Nat) (script : Script.Frame → Reaction) :
    Trigger → RuleBody × Nat
  | each patterns =>
    let (patterns, made) := ClaimDraft.realizeAll place made patterns
    (.each patterns fun context m => script ⟨context, m, [m]⟩, made)
  | grouped patterns =>
    let (patterns, made) := ClaimDraft.realizeAll place made patterns
    (.grouped patterns fun context all => script ⟨context, ∅, all⟩, made)
  | capture pattern =>
    let (pattern, made) := pattern.realize place made
    (.capture pattern fun context m => script ⟨context, m, [m]⟩, made)

end Trigger

namespace Script

/-- Registers a rule, or deals with its refusal. -/
def State.register (state : State) (body : RuleBody) (logsRefusal : Bool) : State :=
  match body.refusal? with
  | none => state.act (.register body)
  | some reason =>
    let fault := Fault.refusal reason
    if logsRefusal then
      state.act (.log (.object [("error", .text fault.kind), ("message", .text fault.message)]))
    else
      state.stop (.failed fault)

/-- Runs something once for each match, up to the first failure. -/
def forEach (run : Match → State → State) : List Match → State → State
  | [], state => state
  | m :: rest, state =>
    let state := run m state
    if state.isDone then forEach run rest state else state

/-- What a script has done. -/
def State.reaction (state : State) : Reaction := ⟨state.actions.toList, state.outcome⟩

mutual

/-- Performs one step. -/
def perform (frame : Frame) (state : State) : Step → State
  | .claim name args =>
    state.proceed (Term.evalAll frame state.made args) fun values state =>
      state.act (.assert (.fact name values))
  | .wish name args =>
    state.proceed (Term.evalAll frame state.made args) fun values state =>
      state.act (frame.context.wish name values)
  | .assert draft =>
    let (claim, made) := draft.realize frame.context.origin state.made
    { state with made }.act (.assert claim)
  | .logMatch => state.act (.log frame.current.toJson)
  | .logTerm term =>
    state.proceed (term.eval frame state.made) fun value state => state.act (.log value.toJson)
  | .logDocument document => state.act (.log document)
  | .report message => state.act (.report message)
  | .fail fault => state.stop (.failed fault)
  | .panic message => state.stop (.panicked message)
  | .branch test a b yes no =>
    state.proceed (Term.evalPair frame state.made a b) fun (v, w) state =>
      if test.holds v w then performAll frame state yes else performAll frame state no
  | .each body =>
    forEach (fun m state => performAll { frame with current := m } state body) frame.all state
  | .register trigger body logsRefusal =>
    let script (frame : Frame) := (performAll frame {} body).reaction
    let (rule, made) := trigger.realize frame.context.origin state.made script
    { state with made }.register rule logsRefusal
termination_by structural step => step

/-- Performs steps, up to the first that fails. -/
def performAll (frame : Frame) (state : State) : List Step → State
  | [] => state
  | step :: rest =>
    let state := perform frame state step
    if state.isDone then performAll frame state rest else state
termination_by structural steps => steps

end

/-- The registrar that a script describes. -/
def registrar (script : List Step) (context : Context) : Reaction :=
  (performAll ⟨context, ∅, []⟩ {} script).reaction

end Script

end Blackboard
