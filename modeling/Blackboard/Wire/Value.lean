import Blackboard.Match
import Blackboard.Wire.Fields

/-!
# Values and claims as documents

The written forms of values, arguments, claims and matches. Values and
arguments are tagged with their kind. A structured value that is read is a new
one, made at the place that the reader is told.
-/

namespace Blackboard

namespace Value

/-- The written form of a value. -/
def encode (value : Value) : Json :=
  match value with
  | bool b => .tag value.kind (.bool b)
  | int n => .tag value.kind (.int n.toInt)
  | float x => .tag value.kind (.ofBinary64 x)
  | text s => .tag value.kind (.text s)
  | structured _ payload => .tag value.kind payload.document
  | null => .object [("type", .text value.kind)]

/-- The kinds of values, in the order of their numbers. -/
def kinds : List String := ["bool", "int", "float", "string", "structured", "null"]

/-- The value of a kind with a content; only the null value has no content. -/
def ofContent? (origin : Origin) (kind : String) (content : Option Json) : Option Value :=
  match kind with
  | "bool" => (content.bind Json.bool?).map bool
  | "int" => (content.bind Json.int64?).map int
  | "float" => (content.bind Json.number?).map float
  | "string" => (content.bind Json.text?).map text
  | "structured" => (content.bind Payload.ofJson?).map (structured origin)
  | "null" =>
    match content with
    | none => some null
    | some .null => some null
    | _ => none
  | _ => none

/-- Reads a value, either at once or after it was held back. -/
def decodeAs? (reading : Reading) (origin : Origin) (document : Json) : Option Value := do
  let tagged ← document.tagged? reading kinds
  ofContent? origin tagged.name tagged.content

/-- Reads a value; a structured one is made at the given place. -/
def decode? (origin : Origin) (document : Json) : Option Value :=
  decodeAs? .direct origin document

end Value

namespace Arg

/-- The written form of an argument. -/
def encode : Arg → Json
  | val value => .tag "constant" value.encode
  | var name => .tag "variable" (.text name)

/-- The kinds of arguments, in the order of their numbers. -/
def kinds : List String := ["constant", "variable"]

/-- Reads an argument; a structured value in it is made at the given place. -/
def decode? (origin : Origin) (document : Json) : Option Arg := do
  let tagged ← document.tagged? .direct kinds
  match tagged.name with
  | "constant" => (tagged.content.bind (Value.decodeAs? tagged.reading origin)).map val
  | "variable" => (tagged.content.bind Json.text?).map var
  | _ => none

end Arg

namespace ProgramId

def encode (id : ProgramId) : Json := .text id.text

def decode? (document : Json) : Option ProgramId := document.text?.map ProgramId.mk

end ProgramId

namespace Claim

/-- The written form of a claim. -/
def encode (claim : Claim) : Json :=
  .object [("name", .text claim.name), ("args", .array (claim.args.map Arg.encode)),
    ("source", claim.source.encode), ("is_dynamic", .bool claim.isDynamic)]

/-- Reads a claim, which is static unless it says otherwise. -/
def decode? (origin : Origin) (document : Json) : Option Claim := do
  let fields ← document.fields? ["name", "args", "source", "is_dynamic"]
  return { name := ← fields.required "name" Json.text?
           args := ← fields.required "args"
             (Json.items? fun index item => Arg.decode? (.item origin index) item)
           source := ← fields.required "source" ProgramId.decode?
           isDynamic := ← fields.optional "is_dynamic" Json.bool? false }

end Claim

namespace Match

/-- The written form of a match. -/
def encode (m : Match) : Json :=
  .object (m.toList.map fun (variableName, value) => (variableName, value.encode))

/-- Reads a match. If a variable occurs more than once, its last value counts. -/
def decode? (origin : Origin) : Json → Option Match
  | .object members => do
    let bindings ← members.zipIdx.mapM fun ((variableName, document), index) =>
      (Value.decode? (.item origin index) document).map fun value => (variableName, value)
    return ofList bindings
  | _ => none

end Match

end Blackboard
