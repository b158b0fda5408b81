import Blackboard.Proofs.Store.History
import Blackboard.Proofs.Value.Equality
import Mathlib.Data.List.Forall2
import Mathlib.Data.List.Sigma

/-!
# The index of a store

The index repeats the tuples of a name, filed under their slots. `Indexed` says
that every slot holds exactly the tuples that have it, in order and with
multiplicity. Every insertion keeps a store indexed, so the index may be asked
instead of the tuples: a look-up by position and value finds the tuples that
hold an equal value there (`Indexed.tuplesAt`).
-/

namespace Blackboard

/-! ## Slots of a tuple -/

namespace IndexSlot

theorem mem_ofTuple_iff (tuple : Tuple) (slot : IndexSlot) :
    slot ∈ ofTuple tuple ↔
      ∃ value, tuple[slot.position]? = some value ∧ value.indexKey? = some slot.key := by
  unfold ofTuple
  rw [List.mem_filterMap]
  constructor
  · rintro ⟨⟨value, position⟩, placed, filed⟩
    obtain ⟨key, keyed, rfl⟩ := Option.map_eq_some_iff.mp filed
    exact ⟨value, List.mk_mem_zipIdx_iff_getElem?.mp placed, keyed⟩
  · rintro ⟨value, held, keyed⟩
    exact ⟨(value, slot.position), List.mk_mem_zipIdx_iff_getElem?.mpr held, by simp [keyed]⟩

/-- A tuple has no slot twice, for its positions differ. -/
theorem nodup_ofTuple (tuple : Tuple) : (ofTuple tuple).Nodup := by
  have positions : tuple.zipIdx.Pairwise fun first second => first.2 ≠ second.2 :=
    List.pairwise_map.mp (List.nodup_zipIdx_map_snd tuple)
  unfold ofTuple
  refine List.pairwise_filterMap.mpr (positions.imp ?_)
  rintro ⟨v, i⟩ ⟨w, j⟩ different first firstFiled second secondFiled slotEq
  obtain ⟨key, _, rfl⟩ := Option.map_eq_some_iff.mp firstFiled
  obtain ⟨other, _, rfl⟩ := Option.map_eq_some_iff.mp secondFiled
  exact different (congrArg IndexSlot.position slotEq)

/-- A tuple has the slot of a keyed value exactly if it holds an equal value at
the position. -/
theorem mem_ofTuple_iff_holds {value : Value} {key : IndexKey}
    (keyed : value.indexKey? = some key) (tuple : Tuple) (position : Nat) :
    ⟨position, key⟩ ∈ ofTuple tuple ↔ tuple[position]?.any (· == value) = true := by
  rw [mem_ofTuple_iff, Option.any_eq_true]
  simp only [Value.beq_iff_indexKey?_eq keyed]

end IndexSlot

/-! ## Buckets -/

namespace Relation

/-- The tuples filed under a slot. -/
def bucket (relation : Relation) (slot : IndexSlot) : List Tuple :=
  ((relation.index[slot]?).getD #[]).toList

/-- Filing a tuple under distinct slots appends it to the bucket of each. -/
theorem bucket_foldl_alter (tuple : Tuple) (slots : List IndexSlot) (distinct : slots.Nodup)
    (index : Std.ExtTreeMap IndexSlot (Array Tuple)) (slot : IndexSlot) :
    ((slots.foldl (fun index slot => index.alter slot fun held =>
        some ((held.getD #[]).push tuple)) index)[slot]?.getD #[]).toList =
      (index[slot]?.getD #[]).toList ++ if slot ∈ slots then [tuple] else [] := by
  induction slots generalizing index with
  | nil => simp
  | cons first rest ih =>
      rw [List.nodup_cons] at distinct
      rw [List.foldl_cons, ih distinct.2, Std.ExtTreeMap.getElem?_alter]
      by_cases here : first = slot
      · subst first
        simp [distinct.1]
      · simp [here, Ne.symm here]

theorem bucket_insert (relation : Relation) (tuple : Tuple) (slot : IndexSlot) :
    (relation.insert tuple).bucket slot =
      relation.bucket slot ++ if slot ∈ IndexSlot.ofTuple tuple then [tuple] else [] :=
  bucket_foldl_alter tuple (IndexSlot.ofTuple tuple) (IndexSlot.nodup_ofTuple tuple)
    relation.index slot

/-- Every bucket holds exactly the tuples that have its slot, in order. -/
def Indexed (relation : Relation) : Prop :=
  ∀ slot, relation.bucket slot =
    relation.tuples.toList.filter fun tuple => decide (slot ∈ IndexSlot.ofTuple tuple)

theorem indexed_empty : ({} : Relation).Indexed := by
  intro slot
  simp [bucket]

theorem Indexed.insert {relation : Relation} (indexed : relation.Indexed) (tuple : Tuple) :
    (relation.insert tuple).Indexed := by
  intro slot
  rw [bucket_insert, indexed slot]
  by_cases filed : slot ∈ IndexSlot.ofTuple tuple <;> simp [Relation.insert, filed]

end Relation

/-! ## Indexed stores -/

namespace Store

/-- The relation of every name is indexed. -/
def Indexed (store : Store) : Prop := ∀ name, (store.relation name).Indexed

theorem indexed_empty : (∅ : Store).Indexed := by
  intro name
  rw [relation_empty]
  exact Relation.indexed_empty

theorem Indexed.insertAll {store : Store} (indexed : store.Indexed) (claims : List Claim) :
    (store.insertAll claims).Indexed := by
  intro name
  rw [relation_insertAll]
  have start := indexed name
  generalize store.relation name = relation at start ⊢
  induction factsOf claims name generalizing relation with
  | nil => exact start
  | cons tuple facts ih => exact ih _ (start.insert tuple)

theorem Indexed.insert {store : Store} (indexed : store.Indexed) (claim : Claim) :
    (store.insert claim).Indexed :=
  indexed.insertAll [claim]

theorem indexed_ofClaims (claims : List Claim) : (ofClaims claims).Indexed :=
  indexed_empty.insertAll claims

/-- Asked for a value that has a key, the index finds the tuples that hold an
equal value at the position, as a scan would. -/
theorem Indexed.tuplesAt {store : Store} (indexed : store.Indexed) {value : Value}
    (keyed : value.indexKey?.isSome = true) (name : String) (position : Nat) :
    (store.tuplesAt name position value).toList =
      (store.tuples name).toList.filter fun tuple => tuple[position]?.any (· == value) := by
  obtain ⟨key, keyEq⟩ := Option.isSome_iff_exists.mp keyed
  have filed := indexed name ⟨position, key⟩
  have bucketEq : (store.tuplesAt name position value).toList =
      (store.relation name).bucket ⟨position, key⟩ := by
    unfold Store.tuplesAt relation Relation.bucket
    rw [keyEq]
    cases store.relations[name]? with
    | none => simp
    | some relation => rfl
  rw [bucketEq, filed, tuples_eq_relation]
  apply List.filter_congr
  intro tuple _
  rw [Bool.eq_iff_iff, decide_eq_true_iff, IndexSlot.mem_ofTuple_iff_holds keyEq]

/-! ## Containment -/

/-- Lists of values are equal if they are so value by value. -/
theorem beq_tuple_iff (first second : Tuple) :
    (first == second) = true ↔ List.Forall₂ (fun v w => (v == w) = true) first second := by
  induction first generalizing second with
  | nil => cases second <;> simp
  | cons v first ih =>
      cases second with
      | nil => simp
      | cons w second => rw [List.cons_beq_cons, Bool.and_eq_true, List.forall₂_cons, ih]

theorem firstIndexed?_eq_some {values : Tuple} {position : Nat} {value : Value}
    (first : firstIndexed? values = some (position, value)) :
    values[position]? = some value ∧ value.indexKey?.isSome = true := by
  unfold firstIndexed? at first
  obtain ⟨⟨other, place⟩, placed, chosen⟩ := List.exists_of_findSome?_eq_some first
  simp only [Option.ite_none_right_eq_some, Option.some.injEq, Prod.mk.injEq] at chosen
  rcases chosen with ⟨keyed, rfl, rfl⟩
  exact ⟨List.mk_mem_zipIdx_iff_getElem?.mp placed, keyed⟩

/-- A tuple is contained exactly if an equal one is stored: probing the index at
the first value that has a key loses none. -/
theorem Indexed.containsTuple_iff {store : Store} (indexed : store.Indexed) (name : String)
    (values : Tuple) :
    store.containsTuple name values = true ↔
      ∃ tuple ∈ (store.tuples name).toList, (tuple == values) = true := by
  unfold containsTuple
  cases first : firstIndexed? values with
  | none => rw [← Array.any_toList, List.any_eq_true]
  | some probe =>
      rcases probe with ⟨position, value⟩
      obtain ⟨held, keyed⟩ := firstIndexed?_eq_some first
      rw [← Array.any_toList, indexed.tuplesAt keyed, List.any_eq_true]
      constructor
      · rintro ⟨tuple, found, equal⟩
        exact ⟨tuple, (List.mem_filter.mp found).1, equal⟩
      · rintro ⟨tuple, stored, equal⟩
        refine ⟨tuple, List.mem_filter.mpr ⟨stored, ?_⟩, equal⟩
        obtain ⟨lengthEq, pointwise⟩ :=
          List.forall₂_iff_get.mp ((beq_tuple_iff tuple values).mp equal)
        obtain ⟨inside, valueEq⟩ := List.getElem?_eq_some_iff.mp held
        have insideTuple : position < tuple.length := lengthEq ▸ inside
        rw [List.getElem?_eq_getElem insideTuple, Option.any_some, ← valueEq]
        exact pointwise position insideTuple inside

theorem Indexed.contains_iff {store : Store} (indexed : store.Indexed) (claim : Claim) :
    store.contains claim = true ↔
      ∃ values, claim.values? = some values ∧
        ∃ tuple ∈ (store.tuples claim.name).toList, (tuple == values) = true := by
  unfold contains
  rw [Option.any_eq_true]
  simp only [indexed.containsTuple_iff]

end Store

end Blackboard
