import Blackboard.Claim
import Blackboard.Value.Key

/-!
# Facts

A store keeps the tuples of each claim name in the order in which they came,
duplicates included, and finds those that hold a given value at a given
position through an index. Facts are never removed: a tick starts with a new
store.

The view of a store is `Store.tuples`, the tuples of a name. The index holds
nothing else; it only answers faster.
-/

namespace Blackboard

/-- The arguments of a stored fact. -/
abbrev Tuple := List Value

/-- A position of a tuple and the key of the value there. -/
structure IndexSlot where
  position : Nat
  key : IndexKey
deriving DecidableEq, Repr

namespace IndexSlot

/-- Slots are ordered by position, then by key. -/
instance : Ord IndexSlot :=
  ⟨compareLex (compareOn IndexSlot.position) (compareOn IndexSlot.key)⟩

instance : Std.TransOrd IndexSlot :=
  inferInstanceAs
    (Std.TransCmp (compareLex (compareOn IndexSlot.position) (compareOn IndexSlot.key)))

instance : Std.LawfulEqOrd IndexSlot where
  compare_self := Std.ReflCmp.compare_self
  eq_of_compare := by
    intro a b same
    have parts : compare a.position b.position = .eq ∧ compare a.key b.key = .eq := by
      simpa only [compareOn] using compareLex_eq_eq.mp same
    cases a
    cases b
    simp only [mk.injEq]
    exact ⟨Std.LawfulEqOrd.eq_of_compare parts.1, Std.LawfulEqOrd.eq_of_compare parts.2⟩

/-- The slots of a tuple: one for each of its values that has a key. -/
def ofTuple (tuple : Tuple) : List IndexSlot :=
  tuple.zipIdx.filterMap fun (value, position) => value.indexKey?.map fun key => ⟨position, key⟩

end IndexSlot

/-- The facts that share a claim name. -/
structure Relation where
  tuples : Array Tuple := #[]
  index : Std.ExtTreeMap IndexSlot (Array Tuple) := ∅

namespace Relation

/-- Adds a tuple behind all others, here and under each of its slots. -/
def insert (relation : Relation) (tuple : Tuple) : Relation where
  tuples := relation.tuples.push tuple
  index := (IndexSlot.ofTuple tuple).foldl
    (fun index slot => index.alter slot fun held => some ((held.getD #[]).push tuple))
    relation.index

end Relation

/-- Stored facts by claim name. -/
structure Store where
  relations : Std.ExtTreeMap String Relation := ∅
  size : Nat := 0

namespace Store

def empty : Store := {}

instance : EmptyCollection Store := ⟨empty⟩
instance : Inhabited Store := ⟨empty⟩

/-- All tuples of a name, in the order in which they came. -/
def tuples (store : Store) (name : String) : Array Tuple :=
  (store.relations[name]?).elim #[] Relation.tuples

/-- The tuples of a name that hold an equal value at a position. A value without
a key is not in the index and finds nothing. -/
def tuplesAt (store : Store) (name : String) (position : Nat) (value : Value) : Array Tuple :=
  match store.relations[name]?, value.indexKey? with
  | some relation, some key => (relation.index[IndexSlot.mk position key]?).getD #[]
  | _, _ => #[]

/-- The values of a claim that can be stored as a fact: its name is not empty
and its arguments are all constants. -/
def factOf? (claim : Claim) : Except Refusal Tuple :=
  if claim.name = "" then
    .error .emptyClaimName
  else
    match claim.values? with
    | some values => .ok values
    | none => .error (.variableInFact claim.name claim.variableCount)

/-- Stores a tuple under a name. -/
def insertTuple (store : Store) (name : String) (tuple : Tuple) : Store where
  relations := store.relations.alter name fun held => some ((held.getD {}).insert tuple)
  size := store.size + 1

/-- Stores a claim as a fact, or says why it cannot be one. -/
def insert? (store : Store) (claim : Claim) : Except Refusal Store :=
  (factOf? claim).map (store.insertTuple claim.name)

/-- Stores a claim as a fact; a claim that cannot be one is passed over. -/
def insert (store : Store) (claim : Claim) : Store :=
  match factOf? claim with
  | .ok tuple => store.insertTuple claim.name tuple
  | .error _ => store

/-- Whether a claim can be stored as a fact. -/
def accepts (claim : Claim) : Bool := (factOf? claim).toBool

/-- The first value that has a key, with its position. -/
def firstIndexed? (values : Tuple) : Option (Nat × Value) :=
  values.zipIdx.findSome? fun (value, position) =>
    if value.indexKey?.isSome then some (position, value) else none

/-- Whether a tuple with values equal to these is stored under the name. -/
def containsTuple (store : Store) (name : String) (values : Tuple) : Bool :=
  let candidates := match firstIndexed? values with
    | some (position, value) => store.tuplesAt name position value
    | none => store.tuples name
  candidates.any fun tuple => tuple == values

/-- Whether a ground claim is stored as a fact. -/
def contains (store : Store) (claim : Claim) : Bool :=
  claim.values?.any (store.containsTuple claim.name)

/-- Every name that has facts, in ascending order, with its tuples. -/
def toList (store : Store) : List (String × List Tuple) :=
  store.relations.toList.map fun (name, relation) => (name, relation.tuples.toList)

end Store

end Blackboard
