import Blackboard.Proofs.Binary64.Whole
import Blackboard.Value.Key

/-!
# Equality of values

Values are compared by an identity: the index key of a value that has one, and
the origin of a structured value. A NaN has no identity, so it equals nothing,
and on all other values equality is an equivalence. In particular an index that
is asked by key answers exactly for the values that are equal.
-/

namespace Blackboard

namespace Binary64

/-! ## Numbers and their keys -/

theorem indexKey?_float_of_toInt64? {x : Binary64} {n : Int64} (valued : x.toInt64? = some n) :
    (Value.float x).indexKey? = some (.int n) := by
  simp [Value.indexKey?, isNaN_eq_false_of_toInt64?_eq_some valued, valued]

theorem indexKey?_float_eq_int_iff (x : Binary64) (n : Int64) :
    (Value.float x).indexKey? = some (.int n) ↔ x.toInt64? = some n := by
  constructor
  · intro keyed
    unfold Value.indexKey? at keyed
    cases nan : x.isNaN with
    | true => simp [nan] at keyed
    | false =>
        cases valued : x.toInt64? with
        | none => simp [nan, valued] at keyed
        | some m => simpa [nan, valued] using keyed
  · exact indexKey?_float_of_toInt64?

/-- Numbers are equal exactly if they share a key. -/
theorem same_iff_indexKey? (x y : Binary64) :
    x.same y = true ↔
      ∃ key, (Value.float x).indexKey? = some key ∧ (Value.float y).indexKey? = some key := by
  constructor
  · intro equal
    simp only [same, Bool.and_eq_true, Bool.or_eq_true, Bool.not_eq_true', beq_iff_eq] at equal
    rcases equal with ⟨⟨xNumber, _⟩, pattern | ⟨xZero, yZero⟩⟩
    · have numberEq : x = y := by
        cases x
        cases y
        simpa using pattern
      subst y
      exact ⟨_, if_neg (by simp [xNumber]), if_neg (by simp [xNumber])⟩
    · exact ⟨.int 0, indexKey?_float_of_toInt64? (toInt64?_eq_zero_of_isZero xZero),
        indexKey?_float_of_toInt64? (toInt64?_eq_zero_of_isZero yZero)⟩
  · rintro ⟨key, xKey, yKey⟩
    have xNumber : x.isNaN = false := by
      by_contra nan
      simp [Value.indexKey?, nan] at xKey
    have yNumber : y.isNaN = false := by
      by_contra nan
      simp [Value.indexKey?, nan] at yKey
    simp only [same, xNumber, yNumber, Bool.not_false, Bool.true_and, Bool.or_eq_true,
      Bool.and_eq_true, beq_iff_eq]
    cases key with
    | int n =>
        rw [indexKey?_float_eq_int_iff] at xKey yKey
        exact bits_eq_or_isZero_of_toInt?_eq (toInt64?_eq_some xKey) (toInt64?_eq_some yKey)
    | float bits =>
        left
        cases xWhole : x.toInt64? <;> cases yWhole : y.toInt64? <;>
          simp_all [Value.indexKey?]
    | bool _ | text _ | null =>
        cases xWhole : x.toInt64? <;> simp [Value.indexKey?, xNumber, xWhole] at xKey

end Binary64

namespace Value

/-! ## Identities -/

/-- What a value is compared by. A NaN is compared by nothing. -/
def identity? : Value → Option (IndexKey ⊕ Origin)
  | structured origin _ => some (.inr origin)
  | value => value.indexKey?.map .inl

theorem identity?_of_indexKey? {value : Value} {key : IndexKey}
    (keyed : value.indexKey? = some key) : value.identity? = some (.inl key) := by
  cases value with
  | structured => contradiction
  | _ => simp [identity?, keyed]

theorem identity?_eq_inl_iff (value : Value) (key : IndexKey) :
    value.identity? = some (.inl key) ↔ value.indexKey? = some key := by
  constructor
  · intro identified
    cases value with
    | structured => simp [identity?] at identified
    | _ => simpa [identity?] using identified
  · exact identity?_of_indexKey?

theorem exists_shared_iff {α : Type} (a b : Option α) :
    (∃ shared, a = some shared ∧ b = some shared) ↔ a.isSome = true ∧ a = b := by
  cases a <;> simp [eq_comm]

/-- Values are equal exactly if they have the same identity. -/
theorem beq_iff_identity? (v w : Value) :
    (v == w) = true ↔ ∃ identity, v.identity? = some identity ∧ w.identity? = some identity := by
  change same v w = true ↔ _
  cases v with
  | float x =>
      cases w with
      | float y =>
          rw [same, Binary64.same_iff_indexKey?, exists_shared_iff, exists_shared_iff]
          simp [identity?, Option.map_inj_right]
      | int n =>
          rw [same, beq_iff_eq, ← Binary64.indexKey?_float_eq_int_iff]
          simp [identity?, indexKey?]
      | bool _ | text _ | structured _ _ | null =>
          cases whole : x.toInt64? <;> simp [same, identity?, indexKey?, whole]
  | int n =>
      cases w with
      | float y =>
          rw [same, beq_iff_eq, ← Binary64.indexKey?_float_eq_int_iff]
          simp [identity?, indexKey?]
      | bool _ | int _ | text _ | structured _ _ | null =>
          rw [exists_shared_iff]
          simp [same, identity?, indexKey?]
  | bool _ | text _ | structured _ _ | null =>
      cases w with
      | float y => cases whole : y.toInt64? <;> simp [same, identity?, indexKey?, whole]
      | bool _ | int _ | text _ | structured _ _ | null =>
          rw [exists_shared_iff]
          simp [same, identity?, indexKey?]

theorem beq_symm {v w : Value} (equal : (v == w) = true) : (w == v) = true := by
  obtain ⟨identity, vIdentity, wIdentity⟩ := (beq_iff_identity? v w).mp equal
  exact (beq_iff_identity? w v).mpr ⟨identity, wIdentity, vIdentity⟩

theorem beq_comm (v w : Value) : (v == w) = (w == v) :=
  Bool.eq_iff_iff.mpr ⟨beq_symm, beq_symm⟩

theorem beq_trans {u v w : Value} (first : (u == v) = true) (second : (v == w) = true) :
    (u == w) = true := by
  obtain ⟨identity, uIdentity, vIdentity⟩ := (beq_iff_identity? u v).mp first
  obtain ⟨other, vOther, wOther⟩ := (beq_iff_identity? v w).mp second
  obtain rfl : identity = other := Option.some.inj (vIdentity.symm.trans vOther)
  exact (beq_iff_identity? u w).mpr ⟨identity, uIdentity, wOther⟩

/-- A value with a key equals exactly the values with that key. -/
theorem beq_iff_indexKey?_eq {value : Value} {key : IndexKey}
    (keyed : value.indexKey? = some key) (other : Value) :
    (other == value) = true ↔ other.indexKey? = some key := by
  rw [beq_iff_identity?, identity?_of_indexKey? keyed, ← identity?_eq_inl_iff]
  simp

/-- A number that equals nothing, itself included. -/
def IsNaN (value : Value) : Prop := ∃ x : Binary64, value = .float x ∧ x.isNaN = true

theorem identity?_eq_none_iff (value : Value) : value.identity? = none ↔ value.IsNaN := by
  unfold IsNaN
  cases value with
  | float x => cases nan : x.isNaN <;> simp [identity?, indexKey?, nan]
  | bool _ | int _ | text _ | structured _ _ | null => simp [identity?, indexKey?]

/-- Every value other than a NaN equals itself. -/
theorem beq_self_iff (value : Value) : (value == value) = true ↔ ¬ value.IsNaN := by
  rw [beq_iff_identity?, ← identity?_eq_none_iff]
  cases value.identity? <;> simp

/-! ## Values that are alike -/

/-- Values are alike if they are identical or equal. Other than equality, this
holds between a NaN and itself. -/
def Alike (v w : Value) : Prop := v = w ∨ (v == w) = true

theorem Alike.refl (v : Value) : Alike v v := .inl rfl

theorem Alike.symm {v w : Value} (alike : Alike v w) : Alike w v := by
  rcases alike with rfl | equal
  · exact .inl rfl
  · exact .inr (beq_symm equal)

theorem Alike.trans {u v w : Value} (first : Alike u v) (second : Alike v w) : Alike u w := by
  rcases first with rfl | equal
  · exact second
  rcases second with rfl | equal'
  · exact .inr equal
  · exact .inr (beq_trans equal equal')

/-- Equal values stay equal if each is replaced by one that is alike. -/
theorem Alike.beq {v v' w w' : Value} (left : Alike v v') (right : Alike w w')
    (equal : (v == w) = true) : (v' == w') = true := by
  have middle : (v' == w) = true := by
    rcases left with rfl | leftEqual
    · exact equal
    · exact beq_trans (beq_symm leftEqual) equal
  rcases right with rfl | rightEqual
  · exact middle
  · exact beq_trans middle rightEqual

end Value

end Blackboard
