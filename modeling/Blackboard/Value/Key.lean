import Blackboard.Value.Basic

/-!
# Index keys

A key stands for all values that are equal to one another, so that an index can
find them at once. A whole number and the number with the same exact value
share a key. Values that equal nothing, and values that are compared by where
they were made, have none.
-/

namespace Blackboard

/-- The key of a value in an index. -/
inductive IndexKey where
  | bool (b : Bool)
  | int (n : Int64)
  /-- The pattern of a number that is no 64-bit whole number, and no NaN. -/
  | float (bits : UInt64)
  | text (s : String)
  | null
deriving DecidableEq, Repr

namespace IndexKey

/-- Kind and content of a key, spread over types that are ordered. -/
def code : IndexKey → Nat × Int × String
  | bool b => (0, b.toNat, "")
  | int n => (1, n.toInt, "")
  | float bits => (2, bits.toNat, "")
  | text s => (3, 0, s)
  | null => (4, 0, "")

theorem code_injective {a b : IndexKey} (same : a.code = b.code) : a = b := by
  cases a <;> cases b <;> simp_all [code]
  case bool.bool a b => cases a <;> cases b <;> simp_all
  case int.int => exact Int64.toInt_inj.mp same
  case float.float => exact UInt64.toNat_inj.mp (by omega)

/-- Keys are ordered by kind, then by content. -/
instance : Ord IndexKey :=
  ⟨compareLex (compareOn fun key => key.code.1)
    (compareLex (compareOn fun key => key.code.2.1) (compareOn fun key => key.code.2.2))⟩

instance : Std.TransOrd IndexKey :=
  inferInstanceAs (Std.TransCmp (compareLex (compareOn fun key : IndexKey => key.code.1)
    (compareLex (compareOn fun key => key.code.2.1) (compareOn fun key => key.code.2.2))))

theorem code_eq_of_compare {a b : IndexKey} (same : compare a b = .eq) : a.code = b.code := by
  have parts : compare a.code.1 b.code.1 = .eq ∧ compare a.code.2.1 b.code.2.1 = .eq ∧
      compare a.code.2.2 b.code.2.2 = .eq := by
    simpa only [compareLex, compareOn, Ordering.then_eq_eq] using compareLex_eq_eq.mp same
  exact Prod.ext (Std.LawfulEqOrd.eq_of_compare parts.1)
    (Prod.ext (Std.LawfulEqOrd.eq_of_compare parts.2.1) (Std.LawfulEqOrd.eq_of_compare parts.2.2))

instance : Std.LawfulEqOrd IndexKey where
  compare_self := Std.ReflCmp.compare_self
  eq_of_compare same := code_injective (code_eq_of_compare same)

end IndexKey

namespace Value

/-- The key under which a value is found, if it has one. -/
def indexKey? : Value → Option IndexKey
  | bool b => some (.bool b)
  | int n => some (.int n)
  | float x =>
    if x.isNaN then
      none
    else
      some (match x.toInt64? with
        | some n => .int n
        | none => .float x.bits)
  | text s => some (.text s)
  | null => some .null
  | structured _ _ => none

end Value

end Blackboard
