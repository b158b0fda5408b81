import Blackboard.Proofs.Query.Join
import Blackboard.Proofs.Store.Refinement

/-!
# Containment and ground queries

Whether a fact is stored can be asked in two ways. A look-up probes the index at the first
value that has a key. A query for the claim itself probes it at the first argument, and
examines all tuples of the name if that has no key. Both find what a scan finds: a fact is
contained if the query finds something, and the query finds the empty match once for every
stored tuple that is equal (`Database.containment_agrees_with_query`).
-/

namespace Blackboard

/-- Tuples of one length that hold equal values, position by position. -/
def EqualTuples (first second : Tuple) : Prop :=
  List.Forall₂ (fun held value => (held == value) = true) first second

instance (first second : Tuple) : Decidable (EqualTuples first second) :=
  inferInstanceAs (Decidable (List.Forall₂ _ _ _))

theorem equalTuples_cons_iff (held value : Value) (tuple values : Tuple) :
    EqualTuples (held :: tuple) (value :: values) ↔
      (held == value) = true ∧ EqualTuples tuple values :=
  List.forall₂_cons

theorem equalTuples_iff_beq (first second : Tuple) :
    EqualTuples first second ↔ (first == second) = true :=
  (Store.beq_tuple_iff first second).symm

/-! ## Ground patterns -/

/-- Constants fit the values that they are equal to, and bind nothing. -/
theorem Match.fit?_constants (m : Match) {tuple values : Tuple}
    (arity : tuple.length = values.length) :
    m.fit? ((values.map Arg.val).zip tuple) =
      if EqualTuples tuple values then some m else none := by
  induction values generalizing tuple with
  | nil =>
      obtain rfl := List.length_eq_zero_iff.mp arity
      exact (if_pos List.Forall₂.nil).symm
  | cons value values ih =>
      cases tuple with
      | nil => cases arity
      | cons held tuple =>
          rw [List.map_cons, List.zip_cons_cons, fit?_val, ih (Nat.succ.inj arity)]
          simp only [equalTuples_cons_iff]
          by_cases here : (held == value) = true <;> simp [here]

/-- A ground pattern fits the tuples that are equal to its values, and binds nothing. -/
theorem Claim.fit?_of_values {claim : Claim} {values : Tuple}
    (valuesEq : claim.values? = some values) (m : Match) (tuple : Tuple) :
    claim.fit? m tuple = if EqualTuples tuple values then some m else none := by
  have constants : claim.args = values.map .val := (claim.values?_eq_some_iff values).mp valuesEq
  unfold fit?
  rw [constants, List.length_map]
  by_cases arity : tuple.length = values.length
  · rw [if_pos arity, m.fit?_constants arity]
  · have differ : ¬ EqualTuples tuple values := fun equal => arity equal.length_eq
    rw [if_neg arity, if_neg differ]

namespace Store

/-- A query for a ground pattern finds the empty match once for every stored tuple that is
equal to the values of the pattern. -/
theorem Indexed.answer_found_of_values {store : Store} (indexed : store.Indexed) {claim : Claim}
    {values : Tuple} (valuesEq : claim.values? = some values) :
    (store.answer [claim]).found =
      List.replicate ((store.tuples claim.name).toList.countP (EqualTuples · values)) ∅ := by
  rw [indexed.answer_singleton_found, funext (claim.fit?_of_values valuesEq ∅),
    List.eq_replicate_iff, List.length_filterMap_eq_countP]
  constructor
  · refine List.countP_congr fun tuple _ => ?_
    by_cases equal : EqualTuples tuple values <;> simp [equal]
  · intro m found
    obtain ⟨tuple, _, fitted⟩ := List.mem_filterMap.mp found
    exact (Option.some.inj (Option.ite_none_right_eq_some.mp fitted).2).symm

/-- A fact is contained if the query for it finds something. -/
theorem Indexed.contains_iff_answer_found {store : Store} (indexed : store.Indexed)
    {claim : Claim} {values : Tuple} (valuesEq : claim.values? = some values) :
    store.contains claim = true ↔ (store.answer [claim]).found ≠ [] := by
  rw [indexed.answer_found_of_values valuesEq, indexed.contains_iff, ne_eq,
    List.replicate_eq_nil_iff, ← ne_eq, ← Nat.pos_iff_ne_zero, List.countP_pos_iff, valuesEq]
  simp only [Option.some.injEq, exists_eq_left', decide_eq_true_eq, equalTuples_iff_beq]

end Store

namespace Database

/-- Containment is what a scan says, whatever the values are, and the query for a ground
claim says the same: it finds the empty match once for every stored tuple that is equal to
the values of the claim. That the two probe the index at different positions, or not at all,
makes no difference. -/
theorem containment_agrees_with_query (history : List Insertion) (captures : Captures) :
    let facts := Store.factsOf (history.map Insertion.claim)
    let db : Database := { store := .ofHistory history, captures }
    (∀ name values, db.store.containsTuple name values = true ↔
      ∃ tuple ∈ facts name, EqualTuples tuple values) ∧
    ∀ claim : Claim, claim.isGround = true → ∃ values, claim.values? = some values ∧
      (db.contains claim = true ↔ (db.query [claim]).1 ≠ []) ∧
      (db.query [claim]).1 =
        List.replicate ((facts claim.name).countP (EqualTuples · values)) ∅ := by
  intro facts db
  have indexed : db.store.Indexed := Store.indexed_ofHistory history
  have stored (name : String) : (db.store.tuples name).toList = facts name := by
    change ((Store.ofHistory history).tuples name).toList = facts name
    rw [Store.ofHistory_eq_ofClaims, Store.tuples_ofClaims]
  constructor
  · intro name values
    rw [indexed.containsTuple_iff, stored]
    simp only [equalTuples_iff_beq]
  · intro claim ground
    obtain ⟨values, valuesEq⟩ := (Claim.isGround_iff_exists_values claim).mp ground
    refine ⟨values, valuesEq, indexed.contains_iff_answer_found valuesEq, ?_⟩
    rw [← stored]
    exact indexed.answer_found_of_values valuesEq

/-- A claim whose first value has no key: the look-up probes the index for the second, the
query examines all tuples of the name. Both pass over another instance and a longer tuple. -/
theorem containment_agrees_with_query_of_instance :
    let token : Value := .structured (.given 0) default
    let other : Value := .structured (.given 1) default
    let weighing (values : List Value) : Claim := .fact "@ weighs @" values
    let history : List Insertion :=
      [ .plain (weighing [token, .int 2]), .checked (weighing [other, .int 2]),
        .checked { name := "@ weighs @", args := [.var "x", .val (.int 2)] },
        .checked (weighing [token, .float ⟨0x4000000000000000⟩]),
        .plain (weighing [token, .int 2, .null]) ]
    let claim := weighing [token, .int 2]
    let db : Database := { store := .ofHistory history }
    claim.isGround = true ∧ Store.firstIndexed? [token, .int 2] = some (1, .int 2) ∧
      db.contains claim = true ∧ (db.query [claim]).1 = List.replicate 2 ∅ := by
  intro token other weighing history claim db
  obtain ⟨values, valuesEq, contained, found⟩ :=
    (containment_agrees_with_query history ∅).2 claim rfl
  obtain rfl : [token, .int 2] = values := Option.some.inj valuesEq
  have twice : (Store.factsOf (history.map Insertion.claim) claim.name).countP
      (EqualTuples · [token, .int 2]) = 2 := by decide +kernel
  rw [twice] at found
  refine ⟨rfl, rfl, contained.mpr ?_, found⟩
  rw [found]
  exact List.cons_ne_nil _ _

end Database

end Blackboard
