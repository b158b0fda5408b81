import Blackboard.Json.Canonical

/-!
# Records and tagged documents

Records are read from objects, by name, or from arrays, by position. An object
may have members that the record does not know; they are passed over, whatever
they hold. A member that it knows may stand there only once. An array may end
early, but has no elements beyond the last field.

A tagged document is an object with the members `type` and `value`, in either
order, or an array of the two. A `value` that comes first is held back until its
tag is known. All of it has to be readable then, and the tags inside it may be
spelled in further ways: a tag in an array by its number, and the key of a tag
that is an object with an empty object under it instead of `null`.
-/

namespace Blackboard

namespace Json

def bool? : Json → Option Bool
  | bool b => some b
  | _ => none

def text? : Json → Option String
  | text s => some s
  | _ => none

/-- A number; a whole number is rounded to the nearest. -/
def number? : Json → Option Binary64
  | int n => some (Binary64.ofInt n)
  | float x => some x
  | _ => none

/-- A whole number that a signed 64-bit integer can hold. -/
def int64? : Json → Option Int64
  | int n =>
    if -0x8000000000000000 ≤ n ∧ n < 0x8000000000000000 then some (Int64.ofInt n) else none
  | _ => none

/-- A whole number that an unsigned 64-bit integer can hold. -/
def uint64? : Json → Option UInt64
  | int n => if 0 ≤ n ∧ n < 0x10000000000000000 then some n.toNat.toUInt64 else none
  | _ => none

/-- An array, each of its items read with its index. -/
def items? {α : Type} (read? : Nat → Json → Option α) : Json → Option (List α)
  | array items => items.zipIdx.mapM fun (item, index) => read? index item
  | _ => none

/-- `null`, or something that is there. -/
def nullable? {α : Type} (read? : Json → Option α) : Json → Option (Option α)
  | null => some none
  | document => (read? document).map some

end Json

/-- The fields of a record that are present. -/
abbrev Fields := List (String × Json)

namespace Fields

/-- A field that has to be there. -/
def required {α : Type} (fields : Fields) (name : String) (read? : Json → Option α) : Option α :=
  (fields.lookup name).bind read?

/-- A field that can be left out. -/
def optional {α : Type} (fields : Fields) (name : String) (read? : Json → Option α)
    (default : α) : Option α :=
  match fields.lookup name with
  | some document => read? document
  | none => some default

end Fields

namespace Json

/-- The fields of a record with these names. -/
def fields? (names : List String) : Json → Option Fields
  | object members =>
    let known := members.filter fun member => names.contains member.1
    if (known.map Prod.fst).Nodup then some known else none
  | array items => if items.length ≤ names.length then some (names.zip items) else none
  | _ => none

/-- A document under a tag. -/
def tag (name : String) (content : Json) : Json :=
  object [("type", .text name), ("value", content)]

end Json

/-- When a document is read. -/
inductive Reading where
  /-- As soon as it comes. -/
  | direct
  /-- After it was held back, because it came before its tag. -/
  | heldBack
deriving DecidableEq, Repr

/-- A document and the name that its tag spells. -/
structure Tagged where
  name : String
  /-- What stands under the tag; in an object it may be left out. -/
  content : Option Json
  /-- How the content is to be read. -/
  reading : Reading

namespace Json

/-- The name that a tag spells, as a text or as the only key of an object. -/
def tagName? (reading : Reading) : Json → Option String
  | text name => some name
  | object [(name, null)] => some name
  | object [(name, object [])] => if reading = .heldBack then some name else none
  | _ => none

/-- The name that a tag in an array spells, as a text or by its number among
these names. -/
def itemTagName? (reading : Reading) (names : List String) : Json → Option String
  | text name => some name
  | int n => if reading = .heldBack ∧ 0 ≤ n then names[n.toNat]? else none
  | _ => none

/-- Reads a tagged document; the names are those that its tag can spell. -/
def tagged? (reading : Reading) (names : List String) : Json → Option Tagged
  | array [name, content] =>
    (itemTagName? reading names name).map fun name => ⟨name, content, reading⟩
  | object members =>
    match members.filter fun member => member.1 == "type" || member.1 == "value" with
    | [("type", name)] => (tagName? reading name).map fun name => ⟨name, none, reading⟩
    | [("type", name), ("value", content)] =>
      (tagName? reading name).map fun name => ⟨name, content, reading⟩
    | [("value", content), ("type", name)] =>
      if content.isReadable then
        (tagName? reading name).map fun name => ⟨name, content, .heldBack⟩
      else
        none
    | _ => none
  | _ => none

end Json

end Blackboard
