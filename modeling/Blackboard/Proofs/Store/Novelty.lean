import Blackboard.Proofs.Store.Index

/-!
# Facts that were not there before

A fact is new to a store if no fact that is stored under its name holds equal values.
A store answers this question exactly (`Store.Indexed.contains_insertAll_iff`): what is
contained after some claims were inserted was contained before, or one of the claims
restates it. A value that is not a number equals nothing, so a fact that holds one is
always new.
-/

namespace Blackboard

namespace Store

theorem beq_tuple_symm {first second : Tuple} (equal : (first == second) = true) :
    (second == first) = true := by
  rw [beq_tuple_iff] at equal ⊢
  exact (equal.imp fun _ _ => Value.beq_symm).flip

theorem beq_tuple_trans {first second third : Tuple} (left : (first == second) = true)
    (right : (second == third) = true) : (first == third) = true := by
  rw [beq_tuple_iff] at left right ⊢
  induction left generalizing third with
  | nil => exact right
  | cons here _ ih =>
      obtain ⟨w, rest, equal, tail, rfl⟩ := List.forall₂_cons_left_iff.mp right
      exact .cons (Value.beq_trans here equal) (ih tail)

theorem mem_factsOf_iff (claims : List Claim) (name : String) (tuple : Tuple) :
    tuple ∈ factsOf claims name ↔
      ∃ claim ∈ claims, claim.IsFact ∧ claim.name = name ∧ claim.values? = some tuple := by
  simp [factsOf, and_assoc]

end Store

namespace Claim

/-- The claims share a name, and they hold equal values. -/
def Restates (claim fact : Claim) : Prop :=
  claim.name = fact.name ∧ ∃ values others, claim.values? = some values ∧
    fact.values? = some others ∧ (values == others) = true

instance (claim fact : Claim) : Decidable (claim.Restates fact) :=
  decidable_of_iff (claim.name = fact.name ∧ (claim.values?.any fun values =>
      fact.values?.any fun others => values == others) = true) <| by
    simp [Restates, Option.any_eq_true]

namespace Restates

variable {claim fact other : Claim}

theorem symm (restates : claim.Restates fact) : fact.Restates claim := by
  obtain ⟨sameName, values, others, valuesEq, othersEq, equal⟩ := restates
  exact ⟨sameName.symm, others, values, othersEq, valuesEq, Store.beq_tuple_symm equal⟩

theorem trans (left : claim.Restates fact) (right : fact.Restates other) :
    claim.Restates other := by
  obtain ⟨sameName, values, middle, valuesEq, middleEq, equal⟩ := left
  obtain ⟨sameName', middle', others, middleEq', othersEq, equal'⟩ := right
  obtain rfl : middle = middle' := Option.some.inj (middleEq.symm.trans middleEq')
  exact ⟨sameName.trans sameName', values, others, valuesEq, othersEq,
    Store.beq_tuple_trans equal equal'⟩

end Restates

end Claim

namespace Store

/-! ## What is contained after an insertion -/

namespace Indexed

variable {store : Store} (indexed : store.Indexed)

include indexed

theorem contains_insertAll_iff (claims : List Claim) (other : Claim) :
    (store.insertAll claims).contains other = true ↔
      store.contains other = true ∨ ∃ claim ∈ claims, claim.IsFact ∧ claim.Restates other := by
  rw [(indexed.insertAll claims).contains_iff, indexed.contains_iff, tuples_insertAll]
  simp only [List.mem_append, or_and_right, exists_or, and_or_left, mem_factsOf_iff]
  apply or_congr_right
  constructor
  · rintro ⟨values, valuesEq, tuple, ⟨claim, member, fact, sameName, tupleEq⟩, equal⟩
    exact ⟨claim, member, fact, sameName, tuple, values, tupleEq, valuesEq, equal⟩
  · rintro ⟨claim, member, fact, sameName, tuple, values, tupleEq, valuesEq, equal⟩
    exact ⟨values, valuesEq, tuple, ⟨claim, member, fact, sameName, tupleEq⟩, equal⟩

theorem contains_insert_iff (claim other : Claim) :
    (store.insert claim).contains other = true ↔
      store.contains other = true ∨ claim.IsFact ∧ claim.Restates other := by
  simpa using indexed.contains_insertAll_iff [claim] other

/-- What restates a contained fact is contained. -/
theorem contains_of_restates {claim other : Claim} (restates : claim.Restates other)
    (contained : store.contains claim = true) : store.contains other = true := by
  obtain ⟨sameName, values, others, valuesEq, othersEq, equal⟩ := restates
  obtain ⟨held, heldEq, tuple, stored, sameValues⟩ := (indexed.contains_iff claim).mp contained
  obtain rfl : values = held := Option.some.inj (valuesEq.symm.trans heldEq)
  exact (indexed.contains_iff other).mpr
    ⟨others, othersEq, tuple, sameName ▸ stored, beq_tuple_trans sameValues equal⟩

theorem contains_congr {claim other : Claim} (restates : claim.Restates other) :
    store.contains claim = store.contains other :=
  Bool.eq_iff_iff.mpr
    ⟨indexed.contains_of_restates restates, indexed.contains_of_restates restates.symm⟩

end Indexed

/-! ## Growth -/

/-- Nothing was taken from a store, and a fact was added that it did not contain. -/
structure Gains (before after : Store) : Prop where
  kept : ∀ name, (before.tuples name).toList <+: (after.tuples name).toList
  novel : ∃ name, ∃ tuple ∈ (after.tuples name).toList.drop (before.tuples name).size,
    ∀ earlier ∈ (before.tuples name).toList, (earlier == tuple) = false

theorem Indexed.gains_insertAll_iff {store : Store} (indexed : store.Indexed)
    (claims : List Claim) :
    store.Gains (store.insertAll claims) ↔
      ∃ claim ∈ claims, claim.IsFact ∧ store.contains claim = false := by
  have added (name : String) :
      ((store.insertAll claims).tuples name).toList.drop (store.tuples name).size =
        factsOf claims name := by
    rw [tuples_insertAll, ← Array.length_toList, List.drop_left]
  have unknown {claim : Claim} {tuple : Tuple} (valuesEq : claim.values? = some tuple) :
      store.contains claim = false ↔
        ∀ earlier ∈ (store.tuples claim.name).toList, (earlier == tuple) = false := by
    rw [← Bool.not_eq_true, indexed.contains_iff]
    simp [valuesEq]
  constructor
  · rintro ⟨_, name, tuple, stored, distinct⟩
    rw [added, mem_factsOf_iff] at stored
    obtain ⟨claim, member, fact, rfl, valuesEq⟩ := stored
    exact ⟨claim, member, fact, (unknown valuesEq).mpr distinct⟩
  · rintro ⟨claim, member, fact, absent⟩
    obtain ⟨tuple, valuesEq, _⟩ := factOf?_of_isFact fact
    refine ⟨fun name => ?_, claim.name, tuple, ?_, (unknown valuesEq).mp absent⟩
    · rw [tuples_insertAll]
      exact List.prefix_append _ _
    · rw [added, mem_factsOf_iff]
      exact ⟨claim, member, fact, rfl, valuesEq⟩

/-! ## Facts that are still missing -/

/-- The facts of a list that a store does not contain. -/
def missing (store : Store) (facts : List Claim) : List Claim :=
  facts.filter fun fact => !store.contains fact

theorem missing_length_le (store : Store) (facts : List Claim) :
    (store.missing facts).length ≤ facts.length :=
  List.length_filter_le _ facts

/-- Fewer facts of a list are missing once a claim is stored that restates one of them
and was not contained. -/
theorem Indexed.missing_insertAll_lt {store : Store} (indexed : store.Indexed)
    {claims facts : List Claim} {claim fact : Claim} (claimed : claim ∈ claims)
    (isFact : claim.IsFact) (absent : store.contains claim = false) (listed : fact ∈ facts)
    (restates : claim.Restates fact) :
    ((store.insertAll claims).missing facts).length < (store.missing facts).length := by
  have stillMissing : (store.insertAll claims).missing facts =
      (store.missing facts).filter fun fact => !(store.insertAll claims).contains fact := by
    rw [missing, missing, List.filter_filter]
    apply List.filter_congr
    intro other _
    cases known : store.contains other with
    | false => simp
    | true => simp [(indexed.contains_insertAll_iff claims other).mpr (.inl known)]
  rw [stillMissing, List.length_filter_lt_length_iff_exists]
  refine ⟨fact, ?_, ?_⟩
  · rw [missing, List.mem_filter, ← indexed.contains_congr restates, absent]
    exact ⟨listed, rfl⟩
  · rw [(indexed.contains_insertAll_iff claims fact).mpr (.inr ⟨claim, claimed, isFact, restates⟩)]
    exact Bool.false_ne_true

end Store

end Blackboard
