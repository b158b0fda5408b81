import Blackboard.Claim

/-!
# Matches

A match binds variables to values. Queries extend matches, and callbacks are
handed them. The match that binds nothing is the one that a query starts from.
-/

namespace Blackboard

/-- Values bound to variables. -/
structure Match where
  bindings : Std.ExtTreeMap String Value := ∅

namespace Match

def empty : Match := {}

instance : EmptyCollection Match := ⟨empty⟩
instance : Inhabited Match := ⟨empty⟩

def get? (m : Match) (variableName : String) : Option Value := m.bindings[variableName]?

def binds (m : Match) (variableName : String) : Bool := m.bindings.contains variableName

/-- Binds a variable to a value, whatever it was bound to. -/
def bind (m : Match) (variableName : String) (value : Value) : Match where
  bindings := m.bindings.insert variableName value

/-- Binds variables one after the other; the last binding of a variable stays. -/
def ofList (bindings : List (String × Value)) : Match :=
  bindings.foldl (fun m binding => m.bind binding.1 binding.2) ∅

/-- The bindings in ascending order of the variables. -/
def toList (m : Match) : List (String × Value) := m.bindings.toList

def size (m : Match) : Nat := m.bindings.size

/-- Matches are equal if they bind the same variables to equal values. -/
def same (a b : Match) : Bool := a.toList == b.toList

instance : BEq Match := ⟨same⟩

/-- The value of a variable that a callback cannot do without. -/
def require (m : Match) (variableName : String) : Except Fault Value :=
  match m.get? variableName with
  | some value => .ok value
  | none => .error (.callback s!"variable '{variableName}' is not bound")

def text? (m : Match) (variableName : String) : Option String :=
  (m.get? variableName).bind Value.text?

def number? (m : Match) (variableName : String) : Option Binary64 :=
  (m.get? variableName).bind Value.number?

/-- The document that logs show. -/
def toJson (m : Match) : Json :=
  .object (m.toList.map fun (variableName, value) => (variableName, value.toJson))

end Match

end Blackboard
