import Blackboard.Match

/-!
# Missing facts

A *template* says of which missing facts a rule wants to hear: a claim name,
values that have to be there, variables that take whatever is there, and slots
for what is to be supplied. When a pattern misses, it is laid alongside the
template of its name, position by position:

| argument of the pattern     | argument of the template | outcome             |
|-----------------------------|--------------------------|---------------------|
| open variable               | slot                     | agrees              |
| open variable               | anything else            | does not agree      |
| constant, or bound variable | an equal constant        | agrees              |
| constant, or bound variable | another constant         | does not agree      |
| constant, or bound variable | slot                     | does not agree      |
| constant, or bound variable | variable                 | agrees and is bound |

If every position agrees, the match of the bound variables is recorded as a
*capture* under the name.
-/

namespace Blackboard

/-- Templates by claim name, and the captures made with them. -/
structure Captures where
  templates : Std.ExtTreeMap String Claim := ∅
  recorded : Std.ExtTreeMap String (Array Match) := ∅

namespace Captures

instance : EmptyCollection Captures := ⟨{}⟩
instance : Inhabited Captures := ⟨∅⟩

/-- What an argument of a pattern holds under a match. -/
def resolve (context : Match) : Arg → Option Value
  | .val value => some value
  | .var x => context.get? x

/-- Lays arguments of a pattern alongside those of a template and binds the
template's variables on top of `captured`. -/
def alignArgs (context : Match) : List Arg → List Arg → Match → Option Match
  | [], [], captured => some captured
  | arg :: args, expected :: rest, captured =>
    match resolve context arg, expected with
    | none, _ => if expected.isSlot then alignArgs context args rest captured else none
    | some value, .val constant =>
      if value == constant then alignArgs context args rest captured else none
    | some value, .var x =>
      if expected.isSlot then none else alignArgs context args rest (captured.bind x value)
  | _, _, _ => none

/-- The capture of a pattern that missed under a match, if it agrees with the template. -/
def align (template pattern : Claim) (context : Match) : Option Match :=
  alignArgs context pattern.args template.args ∅

/-- Registers a template for its name, in place of an earlier one. -/
def register (captures : Captures) (template : Claim) : Except Refusal Captures :=
  if template.hasSlot then
    .ok { captures with templates := captures.templates.insert template.name template }
  else
    .error (.missingCaptureSlot template.name)

def template? (captures : Captures) (name : String) : Option Claim := captures.templates[name]?

/-- The capture that a miss makes. -/
def capture? (captures : Captures) (pattern : Claim) (context : Match) : Option Match :=
  (captures.template? pattern.name).bind fun template => align template pattern context

/-- Records a capture behind the others of its name. -/
def record (captures : Captures) (name : String) (captured : Match) : Captures :=
  { captures with
    recorded := captures.recorded.alter name fun held => some ((held.getD #[]).push captured) }

/-- Records what a miss captures, if anything. -/
def miss (captures : Captures) (pattern : Claim) (context : Match) : Captures :=
  match captures.capture? pattern context with
  | some captured => captures.record pattern.name captured
  | none => captures

/-- Records what a list of misses captures, in order. -/
def missAll (captures : Captures) (misses : List (Claim × Match)) : Captures :=
  misses.foldl (fun captures miss => captures.miss miss.1 miss.2) captures

/-- The captures of a name, oldest first. -/
def under (captures : Captures) (name : String) : Array Match :=
  (captures.recorded[name]?).getD #[]

/-- The captures of a name from an index on; `none` if there are not that many. -/
def since? (captures : Captures) (name : String) (index : Nat) : Option (List Match) :=
  let recorded := captures.under name
  if index ≤ recorded.size then some (recorded.extract index recorded.size).toList else none

end Captures

end Blackboard
