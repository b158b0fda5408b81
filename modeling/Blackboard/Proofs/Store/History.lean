import Blackboard.Database
import Mathlib.Data.List.Basic

/-!
# What a store holds

A store is built by inserting claims, some of which are refused. `factsOf` says
what a list of claims leaves behind under a name, without mention of a store:
the values of those that have a name and no open arguments, in order. The
tuples of a store are the facts of its history (`tuples_ofClaims`).
-/

namespace Blackboard

namespace Claim

/-- A claim that can be stored has a name, and its arguments are all constants. -/
def IsFact (claim : Claim) : Prop := claim.name ≠ "" ∧ claim.isGround = true

instance (claim : Claim) : Decidable claim.IsFact :=
  inferInstanceAs (Decidable (_ ∧ _))

theorem mapM_value?_eq_some_iff (args : List Arg) (values : Tuple) :
    args.mapM Arg.value? = some values ↔ args = values.map .val := by
  induction args generalizing values with
  | nil => cases values <;> simp
  | cons arg args ih =>
      cases arg with
      | var name => cases values <;> simp [Arg.value?]
      | val value =>
          cases restEq : args.mapM Arg.value? with
          | none => cases values <;> simp [Arg.value?, restEq, ← ih]
          | some tail => cases values <;> simp [Arg.value?, restEq, ← ih]

/-- The values of a claim are given exactly if its arguments are those constants. -/
theorem values?_eq_some_iff (claim : Claim) (values : Tuple) :
    claim.values? = some values ↔ claim.args = values.map .val :=
  mapM_value?_eq_some_iff claim.args values

theorem isGround_iff_exists_values (claim : Claim) :
    claim.isGround = true ↔ ∃ values, claim.values? = some values := by
  simp only [values?_eq_some_iff]
  unfold isGround
  constructor
  · intro ground
    generalize claim.args = args at ground ⊢
    induction args with
    | nil => exact ⟨[], rfl⟩
    | cons arg args ih =>
        rw [List.all_cons, Bool.and_eq_true] at ground
        obtain ⟨values, rfl⟩ := ih ground.2
        cases arg with
        | val value => exact ⟨value :: values, rfl⟩
        | var name => simp [Arg.isVariable] at ground
  · rintro ⟨values, argsEq⟩
    rw [argsEq]
    simp [Arg.isVariable]

end Claim

namespace Store

/-- The tuples that a list of claims stores under a name, in order. -/
def factsOf (claims : List Claim) (name : String) : List Tuple :=
  (claims.filter fun claim => decide (claim.IsFact ∧ claim.name = name)).filterMap Claim.values?

@[simp]
theorem factsOf_nil (name : String) : factsOf [] name = [] := rfl

theorem factsOf_append (first second : List Claim) (name : String) :
    factsOf (first ++ second) name = factsOf first name ++ factsOf second name := by
  simp [factsOf]

theorem factsOf_cons (claim : Claim) (claims : List Claim) (name : String) :
    factsOf (claim :: claims) name = factsOf [claim] name ++ factsOf claims name :=
  factsOf_append [claim] claims name

/-- The store of a list of claims, inserted one after the other. -/
def insertAll (store : Store) (claims : List Claim) : Store := claims.foldl insert store

/-- The store that a history of insertions leaves behind. -/
def ofClaims (claims : List Claim) : Store := (∅ : Store).insertAll claims

@[simp]
theorem insertAll_nil (store : Store) : store.insertAll [] = store := rfl

@[simp]
theorem insertAll_cons (store : Store) (claim : Claim) (claims : List Claim) :
    store.insertAll (claim :: claims) = (store.insert claim).insertAll claims := rfl

theorem insertAll_append (store : Store) (first second : List Claim) :
    store.insertAll (first ++ second) = (store.insertAll first).insertAll second :=
  List.foldl_append

/-! ## One insertion -/

theorem factOf?_of_isFact {claim : Claim} (fact : claim.IsFact) :
    ∃ tuple, claim.values? = some tuple ∧ factOf? claim = .ok tuple := by
  obtain ⟨tuple, valuesEq⟩ := (Claim.isGround_iff_exists_values claim).mp fact.2
  exact ⟨tuple, valuesEq, by simp [factOf?, fact.1, valuesEq]⟩

theorem factOf?_of_not_isFact {claim : Claim} (refused : ¬ claim.IsFact) :
    ∃ reason, factOf? claim = .error reason := by
  unfold factOf?
  by_cases nameless : claim.name = ""
  · exact ⟨_, if_pos nameless⟩
  · rw [if_neg nameless]
    cases valuesEq : claim.values? with
    | none => exact ⟨_, rfl⟩
    | some values =>
        exact absurd
          ⟨nameless, (Claim.isGround_iff_exists_values claim).mpr ⟨values, valuesEq⟩⟩ refused

theorem accepts_iff_isFact (claim : Claim) : accepts claim = true ↔ claim.IsFact := by
  by_cases fact : claim.IsFact
  · obtain ⟨tuple, _, accepted⟩ := factOf?_of_isFact fact
    simp [accepts, accepted, fact, Except.toBool]
  · obtain ⟨reason, refused⟩ := factOf?_of_not_isFact fact
    simp [accepts, refused, fact, Except.toBool]

theorem insert_of_isFact {claim : Claim} {tuple : Tuple} (store : Store) (fact : claim.IsFact)
    (valuesEq : claim.values? = some tuple) :
    store.insert claim = store.insertTuple claim.name tuple := by
  obtain ⟨other, otherEq, accepted⟩ := factOf?_of_isFact fact
  obtain rfl : tuple = other := Option.some.inj (valuesEq.symm.trans otherEq)
  rw [insert, accepted]

theorem insert_of_not_isFact {claim : Claim} (store : Store) (refused : ¬ claim.IsFact) :
    store.insert claim = store := by
  obtain ⟨reason, refusedEq⟩ := factOf?_of_not_isFact refused
  rw [insert, refusedEq]

theorem factsOf_singleton_of_isFact {claim : Claim} {tuple : Tuple} (fact : claim.IsFact)
    (valuesEq : claim.values? = some tuple) (name : String) :
    factsOf [claim] name = if claim.name = name then [tuple] else [] := by
  by_cases named : claim.name = name
  · simp [factsOf, fact, named, valuesEq]
  · simp [factsOf, named]

theorem factsOf_singleton_of_not_isFact {claim : Claim} (refused : ¬ claim.IsFact)
    (name : String) : factsOf [claim] name = [] := by
  simp [factsOf, refused]

/-! ## The relation of a name -/

/-- What is stored under a name, which is nothing at first. -/
def relation (store : Store) (name : String) : Relation := (store.relations[name]?).getD {}

theorem tuples_eq_relation (store : Store) (name : String) :
    store.tuples name = (store.relation name).tuples := by
  unfold tuples relation
  cases store.relations[name]? <;> rfl

@[simp]
theorem relation_empty (name : String) : (∅ : Store).relation name = {} := by
  change ((∅ : Std.ExtTreeMap String Relation)[name]?).getD ({} : Relation) = {}
  simp

theorem relation_insertTuple (store : Store) (name other : String) (tuple : Tuple) :
    (store.insertTuple name tuple).relation other =
      if name = other then (store.relation other).insert tuple else store.relation other := by
  unfold relation insertTuple
  simp only [Std.ExtTreeMap.getElem?_alter, Std.LawfulEqCmp.compare_eq_iff_eq]
  by_cases same : name = other
  · subst other
    simp
  · simp [same]

/-- An insertion touches only the relation of its name, and only if the claim is
a fact. -/
theorem relation_insert (store : Store) (claim : Claim) (name : String) :
    (store.insert claim).relation name =
      (factsOf [claim] name).foldl Relation.insert (store.relation name) := by
  by_cases fact : claim.IsFact
  · obtain ⟨tuple, valuesEq, _⟩ := factOf?_of_isFact fact
    rw [insert_of_isFact store fact valuesEq, factsOf_singleton_of_isFact fact valuesEq,
      relation_insertTuple]
    by_cases named : claim.name = name <;> simp [named]
  · rw [insert_of_not_isFact store fact, factsOf_singleton_of_not_isFact fact]
    rfl

/-- The relation of a name is that of its facts, in order. -/
theorem relation_insertAll (store : Store) (claims : List Claim) (name : String) :
    (store.insertAll claims).relation name =
      (factsOf claims name).foldl Relation.insert (store.relation name) := by
  induction claims generalizing store with
  | nil => rfl
  | cons claim claims ih =>
      rw [insertAll_cons, ih, relation_insert, ← List.foldl_append, ← factsOf_cons]

/-! ## Tuples and size -/

theorem tuples_foldl_insert (relation : Relation) (facts : List Tuple) :
    (facts.foldl Relation.insert relation).tuples.toList = relation.tuples.toList ++ facts := by
  induction facts generalizing relation with
  | nil => simp
  | cons tuple facts ih =>
      rw [List.foldl_cons, ih]
      simp [Relation.insert]

theorem tuples_insertAll (store : Store) (claims : List Claim) (name : String) :
    ((store.insertAll claims).tuples name).toList =
      (store.tuples name).toList ++ factsOf claims name := by
  rw [tuples_eq_relation, tuples_eq_relation, relation_insertAll, tuples_foldl_insert]

theorem tuples_insert (store : Store) (claim : Claim) (name : String) :
    ((store.insert claim).tuples name).toList =
      (store.tuples name).toList ++ factsOf [claim] name :=
  tuples_insertAll store [claim] name

@[simp]
theorem tuples_empty (name : String) : ((∅ : Store).tuples name).toList = [] := by
  rw [tuples_eq_relation, relation_empty]

/-- The tuples of a name are its facts: duplicates included, in the order in
which they came. -/
theorem tuples_ofClaims (claims : List Claim) (name : String) :
    ((ofClaims claims).tuples name).toList = factsOf claims name := by
  rw [ofClaims, tuples_insertAll, tuples_empty, List.nil_append]

theorem size_insert (store : Store) (claim : Claim) :
    (store.insert claim).size = store.size + if claim.IsFact then 1 else 0 := by
  by_cases fact : claim.IsFact
  · obtain ⟨tuple, valuesEq, _⟩ := factOf?_of_isFact fact
    rw [insert_of_isFact store fact valuesEq, if_pos fact]
    rfl
  · rw [insert_of_not_isFact store fact, if_neg fact]
    rfl

theorem size_insertAll (store : Store) (claims : List Claim) :
    (store.insertAll claims).size =
      store.size + claims.countP fun claim => decide claim.IsFact := by
  induction claims generalizing store with
  | nil => rfl
  | cons claim claims ih =>
      rw [insertAll_cons, ih, size_insert, List.countP_cons]
      by_cases fact : claim.IsFact
      · simp only [fact, if_true, decide_true]
        omega
      · simp [fact]

/-- A store holds exactly the facts among some claims: duplicates included, in
order. -/
structure Holds (store : Store) (claims : List Claim) : Prop where
  tuples : ∀ name, (store.tuples name).toList = factsOf claims name
  size : store.size = claims.countP fun claim => decide claim.IsFact

theorem holds_empty : (∅ : Store).Holds [] where
  tuples := tuples_empty
  size := rfl

theorem Holds.insertAll {store : Store} {claims : List Claim} (holds : store.Holds claims)
    (further : List Claim) : (store.insertAll further).Holds (claims ++ further) where
  tuples := by
    intro name
    rw [tuples_insertAll, holds.tuples, factsOf_append]
  size := by rw [size_insertAll, holds.size, List.countP_append]

end Store

namespace Database

theorem store_insertAll (db : Database) (claims : List Claim) :
    (db.insertAll claims).store = db.store.insertAll claims := by
  induction claims generalizing db with
  | nil => rfl
  | cons claim claims ih => exact ih (db.insert claim)

end Database

end Blackboard
