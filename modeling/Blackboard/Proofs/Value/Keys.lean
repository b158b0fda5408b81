import Blackboard.Proofs.Binary64.Exact
import Blackboard.Proofs.Value.Equality
import Mathlib.Order.Defs.Unbundled

/-!
# Keys decide equality

An index is asked by key, a query compares values. Both come to the same: values are equal
exactly if they share a key, or if they are one structured instance
(`Value.keys_agree_with_equality`). A whole number shares its key with the number whose
exact value it is, and with no number beside it.
-/

namespace Blackboard.Value

/-- Two handles on the structured value that was made at one place. -/
def SameInstance (v w : Value) : Prop :=
  ∃ origin payload payload', v = .structured origin payload ∧ w = .structured origin payload'

/-- A value that is compared by its place of making is structured. -/
theorem identity?_eq_inr_iff (value : Value) (origin : Origin) :
    value.identity? = some (.inr origin) ↔ ∃ payload, value = .structured origin payload := by
  cases value with
  | structured place payload => simp [identity?]
  | bool _ | int _ | float _ | text _ | null => simp [identity?]

/-- Values are equal exactly if they share a key or are one instance. -/
theorem beq_iff_indexKey? (v w : Value) :
    (v == w) = true ↔
      (∃ key, v.indexKey? = some key ∧ w.indexKey? = some key) ∨ v.SameInstance w := by
  rw [beq_iff_identity?]
  constructor
  · rintro ⟨key | origin, vIdentity, wIdentity⟩
    · rw [identity?_eq_inl_iff] at vIdentity wIdentity
      exact .inl ⟨key, vIdentity, wIdentity⟩
    · obtain ⟨payload, rfl⟩ := (identity?_eq_inr_iff v origin).mp vIdentity
      obtain ⟨payload', rfl⟩ := (identity?_eq_inr_iff w origin).mp wIdentity
      exact .inr ⟨origin, payload, payload', rfl, rfl⟩
  · rintro (⟨key, vKey, wKey⟩ | ⟨origin, payload, payload', rfl, rfl⟩)
    · exact ⟨.inl key, identity?_of_indexKey? vKey, identity?_of_indexKey? wKey⟩
    · exact ⟨.inr origin, rfl, rfl⟩

/-- A whole number equals the number whose exact value it is. -/
theorem int_beq_float_iff (n : Int64) (x : Binary64) :
    (int n == float x) = true ↔ x.isFinite = true ∧ x.value = n.toInt := by
  change (x.toInt64? == some n) = true ↔ _
  rw [beq_iff_eq, Binary64.toInt64?_eq_some_iff]

/-- Keys and equality agree on all values, and equality is an equivalence but for NaNs,
which equal nothing. A whole number and another number are compared by their exact
values. -/
theorem keys_agree_with_equality :
    (∀ v w : Value, (v == w) = true ↔
      (∃ key, v.indexKey? = some key ∧ w.indexKey? = some key) ∨ v.SameInstance w) ∧
    Std.Symm (fun v w : Value => (v == w) = true) ∧
    IsTrans Value (fun v w => (v == w) = true) ∧
    (∀ v : Value, (v == v) = true ↔ ¬ v.IsNaN) ∧
    ∀ (n : Int64) (x : Binary64), (int n == float x) = true ↔
      x.isFinite = true ∧ x.value = n.toInt := by
  refine ⟨beq_iff_indexKey?, ⟨?_⟩, ⟨?_⟩, beq_self_iff, int_beq_float_iff⟩
  · intro v w equal
    exact beq_symm equal
  · intro u v w first second
    exact beq_trans first second

/-- The number `2 ^ 53` equals that whole number, and not the one after it, which no number
stands for. -/
example :
    (int 9007199254740992 == float ⟨0x4340000000000000⟩) = true ∧
      (int 9007199254740993 == float ⟨0x4340000000000000⟩) = false := by
  decide +kernel

/-- The number `2 ^ 63` is no 64-bit whole number, and `-2 ^ 63` is the smallest of them. -/
example :
    (float ⟨0x43E0000000000000⟩).indexKey? = some (.float 0x43E0000000000000) ∧
      (float ⟨0xC3E0000000000000⟩).indexKey? = some (.int (-9223372036854775808)) := by
  decide +kernel

/-! ## Variants of a value -/

/-- Values that are identical, or an `int` and a `float` of one number, or two zeros. -/
inductive Variant : Value → Value → Prop where
  | same (value : Value) : Variant value value
  | intFloat (n : Int64) (x : Binary64) (finite : x.isFinite = true) (exact : x.value = n.toInt) :
      Variant (int n) (float x)
  | floatInt (n : Int64) (x : Binary64) (finite : x.isFinite = true) (exact : x.value = n.toInt) :
      Variant (float x) (int n)
  | zeros (x y : Binary64) (left : x.isZero = true) (right : y.isZero = true) :
      Variant (float x) (float y)

/-- Values that are alike are variants of one another, unless they are handles on one
instance with different documents. -/
theorem Alike.variant {v w : Value} (alike : Alike v w)
    (oneDocument : ∀ origin payload payload', v = structured origin payload →
      w = structured origin payload' → payload = payload') : Variant v w := by
  rcases alike with rfl | equal
  · exact .same v
  cases v with
  | int n =>
      cases w with
      | int m =>
          obtain rfl : n = m := beq_iff_eq.mp equal
          exact .same _
      | float x =>
          obtain ⟨finite, exact⟩ := (int_beq_float_iff n x).mp equal
          exact .intFloat n x finite exact
      | _ => cases equal
  | float x =>
      cases w with
      | int n =>
          obtain ⟨finite, exact⟩ := (int_beq_float_iff n x).mp (beq_symm equal)
          exact .floatInt n x finite exact
      | float y =>
          have same : x.same y = true := equal
          simp only [Binary64.same, Bool.and_eq_true, Bool.or_eq_true, beq_iff_eq] at same
          rcases same.2 with bits | ⟨left, right⟩
          · obtain rfl : x = y := congrArg Binary64.mk bits
            exact .same _
          · exact .zeros x y left right
      | _ => cases equal
  | structured origin payload =>
      cases w with
      | structured origin' payload' =>
          obtain rfl : origin = origin' := beq_iff_eq.mp equal
          obtain rfl := oneDocument origin payload payload' rfl rfl
          exact .same _
      | _ => cases equal
  | bool a =>
      cases w with
      | bool b =>
          obtain rfl : a = b := beq_iff_eq.mp equal
          exact .same _
      | _ => cases equal
  | text a =>
      cases w with
      | text b =>
          obtain rfl : a = b := beq_iff_eq.mp equal
          exact .same _
      | _ => cases equal
  | null =>
      cases w with
      | null => exact .same _
      | _ => cases equal

end Blackboard.Value
