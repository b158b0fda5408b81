import Blackboard.Binary64.Basic

/-!
# JSON documents

A document is kept as it was written: the members of an object stay in order
and may repeat a key.

Whole numbers and other numbers are different documents. A piece of text that
obeys the grammar but stands for nothing (a number beyond the range, half a
surrogate pair, brackets nested too deeply) is `Json.unreadable`: readers may
skip it, but cannot use it.
-/

namespace Blackboard

/-- A JSON document. -/
inductive Json where
  | null
  | bool (b : Bool)
  | int (n : Int)
  | float (x : Binary64)
  | text (s : String)
  | array (items : List Json)
  | object (members : List (String × Json))
  | unreadable
deriving Inhabited

namespace Json

/-- The document for a number, which is `null` when the number is not finite. -/
def ofBinary64 (x : Binary64) : Json := if x.isFinite then .float x else .null

end Json

end Blackboard
