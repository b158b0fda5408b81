import Blackboard.Proofs.Store.Index

/-!
# A store is a list of facts

A store is filled by two kinds of calls: one passes over a claim that cannot be
stored, the other says why it cannot. Whatever calls were made, in any order,
every look-up answers from the list of the accepted claims alone: by name it
finds their values, by position and value those of them that hold an equal value
there (`Store.ofHistory_refines`).
-/

namespace Blackboard

namespace Value

/-- The values that cannot be looked up are NaNs and structured values. -/
theorem indexKey?_eq_none_iff (value : Value) :
    value.indexKey? = none ↔
      (∃ x : Binary64, value = .float x ∧ x.isNaN = true) ∨
        ∃ origin payload, value = .structured origin payload := by
  cases value with
  | float x => cases nan : x.isNaN <;> simp [indexKey?, nan]
  | structured origin payload => simp [indexKey?]
  | bool _ | int _ | text _ | null => simp [indexKey?]

end Value

/-- A call that stores a claim. -/
inductive Insertion where
  /-- Passes over a claim that cannot be stored. -/
  | plain (claim : Claim)
  /-- Says why a claim cannot be stored. -/
  | checked (claim : Claim)

namespace Insertion

def claim : Insertion → Claim
  | plain claim => claim
  | checked claim => claim

/-- The store after a call. -/
def apply (store : Store) : Insertion → Store
  | plain claim => store.insert claim
  | checked claim => (store.insert? claim).toOption.getD store

/-- Whether a call answers that the claim was stored. -/
def accepted (store : Store) : Insertion → Bool
  | plain claim => Store.accepts claim
  | checked claim => (store.insert? claim).toBool

theorem insert?_toOption_getD (store : Store) (claim : Claim) :
    (store.insert? claim).toOption.getD store = store.insert claim := by
  unfold Store.insert? Store.insert
  cases Store.factOf? claim <;> rfl

/-- Both kinds of calls leave the same store. -/
theorem apply_eq_insert (store : Store) (insertion : Insertion) :
    insertion.apply store = store.insert insertion.claim := by
  cases insertion with
  | plain claim => rfl
  | checked claim => exact insert?_toOption_getD store claim

/-- Both kinds of calls accept the claims that have a name and no open arguments. -/
theorem accepted_iff_isFact (store : Store) (insertion : Insertion) :
    insertion.accepted store = true ↔ insertion.claim.IsFact := by
  cases insertion with
  | plain claim => exact Store.accepts_iff_isFact claim
  | checked claim =>
      have sameAnswer : (store.insert? claim).toBool = Store.accepts claim := by
        unfold Store.insert? Store.accepts
        cases Store.factOf? claim <;> rfl
      rw [accepted, sameAnswer]
      exact Store.accepts_iff_isFact claim

end Insertion

namespace Store

/-- The store that calls leave behind, made one after the other on an empty one. -/
def ofHistory (history : List Insertion) : Store :=
  history.foldl (fun store insertion => insertion.apply store) ∅

theorem ofHistory_eq_ofClaims (history : List Insertion) :
    ofHistory history = ofClaims (history.map Insertion.claim) := by
  unfold ofHistory ofClaims insertAll
  simp only [List.foldl_map, Insertion.apply_eq_insert]

theorem indexed_ofHistory (history : List Insertion) : (ofHistory history).Indexed := by
  rw [ofHistory_eq_ofClaims]
  exact indexed_ofClaims _

/-- A store answers as a plain list of claims does: by name with the values of the
accepted ones, in order and with duplicates. -/
structure Refines (store : Store) (claims : List Claim) : Prop extends store.Holds claims where
  /-- By position and value, it answers with the tuples of the name that are long
  enough and hold an equal value there, in the same order. Nothing is found for a
  value without a key. -/
  tuplesAt : ∀ name position value,
    (store.tuplesAt name position value).toList =
      if value.indexKey?.isSome then
        (factsOf claims name).filter fun tuple => tuple[position]?.any (· == value)
      else
        []

theorem tuplesAt_of_unkeyed {value : Value} (unkeyed : value.indexKey? = none) (store : Store)
    (name : String) (position : Nat) : store.tuplesAt name position value = #[] := by
  unfold tuplesAt
  rw [unkeyed]
  cases store.relations[name]? <;> rfl

theorem refines_ofClaims (claims : List Claim) : (ofClaims claims).Refines claims where
  toHolds := holds_empty.insertAll claims
  tuplesAt := by
    intro name position value
    cases keyed : value.indexKey? with
    | none => simp [tuplesAt_of_unkeyed keyed]
    | some key =>
        have isKeyed : value.indexKey?.isSome = true := by simp [keyed]
        rw [(indexed_ofClaims claims).tuplesAt isKeyed, tuples_ofClaims]
        rfl

/-- After any calls, accepted and refused ones mixed, a store answers as the list
of the accepted claims does. A further call is accepted exactly if its claim has a
name and no open arguments, and one that is not leaves the store as it is. The
values that are never found by position are NaNs and structured values. -/
theorem ofHistory_refines (history : List Insertion) :
    (ofHistory history).Refines (history.map Insertion.claim) ∧
      (∀ insertion : Insertion,
        insertion.accepted (ofHistory history) = decide insertion.claim.IsFact) ∧
      (∀ insertion : Insertion, insertion.accepted (ofHistory history) = false →
        insertion.apply (ofHistory history) = ofHistory history) ∧
      ∀ value : Value, value.indexKey?.isSome = false ↔
        (∃ x : Binary64, value = .float x ∧ x.isNaN = true) ∨
          ∃ origin payload, value = .structured origin payload := by
  have acceptedEq : ∀ insertion : Insertion,
      insertion.accepted (ofHistory history) = decide insertion.claim.IsFact := by
    intro insertion
    rw [Bool.eq_iff_iff, decide_eq_true_iff]
    exact insertion.accepted_iff_isFact (ofHistory history)
  refine ⟨?_, acceptedEq, ?_, ?_⟩
  · rw [ofHistory_eq_ofClaims]
    exact refines_ofClaims _
  · intro insertion refused
    rw [acceptedEq, decide_eq_false_iff_not] at refused
    rw [insertion.apply_eq_insert]
    exact insert_of_not_isFact _ refused
  · intro value
    rw [Option.isSome_eq_false_iff, Option.isNone_iff_eq_none]
    exact value.indexKey?_eq_none_iff

end Store

end Blackboard
