import Blackboard.Identity
import Blackboard.Json.Canonical
import Blackboard.Json.Printer

/-!
# Values

A value is what an argument of a claim can hold. Primitive values (truth
values, whole numbers, other numbers, texts and null) are compared by what they
are, a whole number and another number by their exact values. Structured values
carry a document and are compared by where they were made: two that were made
separately differ, whatever they carry.

The equality `v == w` decides queries. It is not reflexive, for a NaN equals
nothing, and it is coarser than identity, for `2` and `2.0` are equal.
-/

namespace Blackboard

/-- What an argument of a claim can hold. -/
inductive Value where
  | bool (b : Bool)
  | int (n : Int64)
  | float (x : Binary64)
  | text (s : String)
  | structured (origin : Origin) (payload : Payload)
  | null
deriving Inhabited

namespace Value

/-- Equality of values. -/
def same : Value → Value → Bool
  | bool a, bool b => a == b
  | int a, int b => a == b
  | float a, float b => a.same b
  | int a, float b => b.toInt64? == some a
  | float a, int b => a.toInt64? == some b
  | text a, text b => a == b
  | structured a _, structured b _ => a == b
  | null, null => true
  | _, _ => false

instance : BEq Value := ⟨same⟩

/-- The name of a value's kind. -/
def kind : Value → String
  | bool _ => "bool"
  | int _ => "int"
  | float _ => "float"
  | text _ => "string"
  | structured _ _ => "structured"
  | null => "null"

def isStructured : Value → Bool
  | structured _ _ => true
  | _ => false

def bool? : Value → Option Bool
  | bool b => some b
  | _ => none

def int? : Value → Option Int64
  | int n => some n
  | _ => none

/-- The number of a numeric value; a whole number is rounded to the nearest. -/
def number? : Value → Option Binary64
  | float x => some x
  | int n => some (Binary64.ofInt n.toInt)
  | _ => none

def text? : Value → Option String
  | text s => some s
  | _ => none

def payload? : Value → Option Payload
  | structured _ payload => some payload
  | _ => none

/-- The document that logs and reports show. -/
def toJson : Value → Json
  | bool b => .bool b
  | int n => .int n.toInt
  | float x => Json.ofBinary64 x
  | text s => .text s
  | structured _ payload => payload.document
  | null => .null

/-- In running text numbers have no exponent and whole numbers no point. -/
def displayLayout : Binary64.Layout where
  isPlain _ := true
  wholeEnding := ""
  tie := .upward
  nan := "NaN"
  infinity := "inf"

/-- The value as it stands in running text. -/
def display : Value → String
  | bool b => if b then "true" else "false"
  | int n => toString n.toInt
  | float x => x.render displayLayout
  | text s => s
  | structured _ payload => payload.document.render
  | null => "null"

instance : ToString Value := ⟨display⟩

/-- A program's name as a value. -/
def ofProgramId (id : ProgramId) : Value := .text id.text

end Value

end Blackboard
