import Blackboard.Fault
import Blackboard.Value.Basic

/-!
# Claims

A claim is a named tuple of arguments that a program owns. Its name is a
template in which every `@` stands for an argument, as in `"@ is father of @"`.
A claim whose arguments are all constants is *ground* and can be stored as a
fact; any other is a pattern. A variable whose name starts with `?` is a
*capture slot*.
-/

namespace Blackboard

/-- An argument of a claim: a constant or a named variable. -/
inductive Arg where
  | val (value : Value)
  | var (name : String)
deriving Inhabited

namespace Arg

def value? : Arg → Option Value
  | val value => some value
  | var _ => none

def variableName? : Arg → Option String
  | val _ => none
  | var name => some name

def isVariable : Arg → Bool
  | val _ => false
  | var _ => true

/-- A variable whose name starts with `?`. -/
def isSlot : Arg → Bool
  | val _ => false
  | var name => name.toList.head? == some '?'

/-- Arguments are equal if both are equal constants or both are the same variable. -/
def same : Arg → Arg → Bool
  | val v, val w => v == w
  | var x, var y => x == y
  | _, _ => false

instance : BEq Arg := ⟨same⟩

/-- The argument in running text, a variable in braces. -/
def display : Arg → String
  | val value => value.display
  | var name => "\x7b" ++ name ++ "\x7d"

end Arg

/-- A named tuple of arguments that a program owns. Dynamic claims last one
tick, static ones as long as the program runs. -/
structure Claim where
  name : String
  args : List Arg
  source : ProgramId := .core
  isDynamic : Bool := false
deriving Inhabited

namespace Claim

/-- The claim that values stand in a relation. -/
def fact (name : String) (values : List Value) : Claim := { name, args := values.map .val }

/-- A wish of a program: the wished-for relation, with the program in front. -/
def wish (source : ProgramId) (name : String) (args : List Arg) : Claim :=
  { name := "@ wishes " ++ name
    args := .val (.ofProgramId source) :: args
    source }

def isGround (claim : Claim) : Bool := claim.args.all fun arg => !arg.isVariable

/-- How many arguments are variables. -/
def variableCount (claim : Claim) : Nat := claim.args.countP Arg.isVariable

def hasSlot (claim : Claim) : Bool := claim.args.any Arg.isSlot

/-- The values of a ground claim. -/
def values? (claim : Claim) : Option (List Value) := claim.args.mapM Arg.value?

/-- Claims are equal if they agree in name, arguments, owner and persistence. -/
def same (a b : Claim) : Bool :=
  a.name == b.name && a.args == b.args && a.source == b.source && a.isDynamic == b.isDynamic

instance : BEq Claim := ⟨same⟩

/-- A template with its placeholders filled from left to right. -/
def fill : List Char → List String → String
  | '@' :: rest, arg :: args => arg ++ fill rest args
  | '@' :: rest, [] => fill rest []
  | c :: rest, args => c.toString ++ fill rest args
  | [], _ => ""

/-- The claim in running text: the name with its placeholders filled, or the
name and a list of arguments where their numbers differ. -/
def display (claim : Claim) : String :=
  let args := claim.args.map Arg.display
  if claim.name.toList.count '@' = args.length then
    fill claim.name.toList args
  else
    claim.name ++ "(" ++ ", ".intercalate args ++ ")"

end Claim

end Blackboard
