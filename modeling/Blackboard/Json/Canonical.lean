import Blackboard.Json.Basic

/-!
# Canonical documents

The canonical form of a document sorts the members of every object by key and
keeps the last of those that share one. A document is *readable* if no part of
it is unreadable, not even one that a later member overrides. The canonical form
of a readable document is canonical (`Json.isCanonical_canonical`), which makes
it a `Payload`.
-/

namespace Blackboard

namespace Json

/-- Puts a member at its place among members that are sorted by key, instead
of the member that had the same key. -/
def insertMember (key : String) (value : Json) : List (String × Json) → List (String × Json)
  | [] => [(key, value)]
  | (other, held) :: rest =>
    match compare key other with
    | .lt => (key, value) :: (other, held) :: rest
    | .eq => (key, value) :: rest
    | .gt => (other, held) :: insertMember key value rest

/-- Members sorted by key; of those that share a key the last one stays. -/
def sortMembers (members : List (String × Json)) : List (String × Json) :=
  members.foldl (fun sorted member => insertMember member.1 member.2 sorted) []

mutual

/-- Sorts the members of every object and drops those that a later one overrides. -/
def canonical : Json → Json
  | .array items => .array (canonicalItems items)
  | .object members => .object (sortMembers (canonicalMembers members))
  | document => document
termination_by structural document => document

def canonicalItems : List Json → List Json
  | [] => []
  | item :: rest => item.canonical :: canonicalItems rest
termination_by structural items => items

def canonicalMembers : List (String × Json) → List (String × Json)
  | [] => []
  | member :: rest => canonicalMember member :: canonicalMembers rest
termination_by structural members => members

def canonicalMember : String × Json → String × Json
  | (key, value) => (key, value.canonical)
termination_by structural member => member

end

/-- The keys of the members come in strictly ascending order. -/
def ascending : List (String × Json) → Bool
  | [] => true
  | [_] => true
  | first :: second :: rest => compare first.1 second.1 == .lt && ascending (second :: rest)

mutual

/-- Every object has its keys in strictly ascending order, and every part stands for something. -/
def isCanonical : Json → Bool
  | .array items => areCanonical items
  | .object members => ascending members && haveCanonical members
  | .unreadable => false
  | _ => true
termination_by structural document => document

def areCanonical : List Json → Bool
  | [] => true
  | item :: rest => item.isCanonical && areCanonical rest
termination_by structural items => items

def haveCanonical : List (String × Json) → Bool
  | [] => true
  | member :: rest => hasCanonical member && haveCanonical rest
termination_by structural members => members

def hasCanonical : String × Json → Bool
  | (_, value) => value.isCanonical
termination_by structural member => member

end

mutual

/-- No part of the document is unreadable. -/
def isReadable : Json → Bool
  | .array items => areReadable items
  | .object members => haveReadable members
  | .unreadable => false
  | _ => true
termination_by structural document => document

def areReadable : List Json → Bool
  | [] => true
  | item :: rest => item.isReadable && areReadable rest
termination_by structural items => items

def haveReadable : List (String × Json) → Bool
  | [] => true
  | member :: rest => hasReadable member && haveReadable rest
termination_by structural members => members

def hasReadable : String × Json → Bool
  | (_, value) => value.isReadable
termination_by structural member => member

end

/-! ## The canonical form is canonical -/

/-- Something may stand in front of members with ascending keys if its key comes
before that of the first. -/
theorem ascending_cons {member : String × Json} {members : List (String × Json)} :
    ascending (member :: members) = true ↔
      (∀ first ∈ members.head?, compare member.1 first.1 = .lt) ∧ ascending members = true := by
  cases members with
  | nil => simp [ascending]
  | cons first rest => simp [ascending]

/-- The first key after an insertion is the new key or the one that was first. -/
theorem head?_insertMember {key : String} {value : Json} {members : List (String × Json)}
    {first : String × Json} (isFirst : first ∈ (insertMember key value members).head?) :
    first.1 = key ∨ ∃ old ∈ members.head?, first.1 = old.1 := by
  cases members with
  | nil =>
    simp only [insertMember, List.head?_cons, Option.mem_def, Option.some.injEq] at isFirst
    exact .inl (isFirst ▸ rfl)
  | cons held rest =>
    simp only [insertMember] at isFirst
    split at isFirst <;>
      simp only [List.head?_cons, Option.mem_def, Option.some.injEq] at isFirst <;> subst isFirst
    · exact .inl rfl
    · exact .inl rfl
    · exact .inr ⟨held, rfl, rfl⟩

/-- Insertion keeps keys ascending. -/
theorem ascending_insertMember {key : String} {value : Json} {members : List (String × Json)}
    (sorted : ascending members = true) : ascending (insertMember key value members) = true := by
  induction members with
  | nil => rfl
  | cons held rest ih =>
    obtain ⟨before, sortedRest⟩ := ascending_cons.mp sorted
    simp only [insertMember]
    split
    case h_1 smaller => exact ascending_cons.mpr ⟨by simpa using smaller, sorted⟩
    case h_2 same =>
      have : key = held.1 := Std.LawfulEqOrd.eq_of_compare same
      exact ascending_cons.mpr ⟨by simpa [this] using before, sortedRest⟩
    case h_3 larger =>
      refine ascending_cons.mpr ⟨fun first isFirst => ?_, ih sortedRest⟩
      rcases head?_insertMember isFirst with isKey | ⟨old, isOld, sameKey⟩
      · rw [isKey]
        exact Std.OrientedCmp.gt_iff_lt.mp larger
      · rw [sameKey]
        exact before old isOld

theorem hasCanonical_eq (member : String × Json) :
    hasCanonical member = member.2.isCanonical := by
  cases member
  rfl

theorem haveCanonical_insertMember {key : String} {value : Json} {members : List (String × Json)}
    (new : value.isCanonical = true) (old : haveCanonical members = true) :
    haveCanonical (insertMember key value members) = true := by
  induction members with
  | nil => simp [insertMember, haveCanonical, hasCanonical_eq, new]
  | cons held rest ih =>
    simp only [haveCanonical, hasCanonical_eq, Bool.and_eq_true] at old
    simp only [insertMember]
    split <;> simp [haveCanonical, hasCanonical_eq, new, old, ih old.2]

/-- Sorting canonical members makes a canonical object. -/
theorem isCanonical_sortMembers {members : List (String × Json)}
    (parts : haveCanonical members = true) :
    (Json.object (sortMembers members)).isCanonical = true := by
  suffices general : ∀ sorted : List (String × Json), ascending sorted = true →
      haveCanonical sorted = true → (Json.object (members.foldl
        (fun sorted member => insertMember member.1 member.2 sorted) sorted)).isCanonical = true
    from general [] rfl rfl
  induction members with
  | nil =>
    intro sorted isSorted isCanonical
    simp [isCanonical, Json.isCanonical, isSorted]
  | cons member rest ih =>
    intro sorted isSorted isCanonical
    simp only [haveCanonical, Bool.and_eq_true] at parts
    exact ih parts.2 _ (ascending_insertMember isSorted)
      (haveCanonical_insertMember (hasCanonical_eq member ▸ parts.1) isCanonical)

mutual

/-- The canonical form of a readable document is canonical. -/
theorem isCanonical_canonical : (document : Json) → document.isReadable = true →
    document.canonical.isCanonical = true
  | .array items, readable => areCanonical_canonicalItems items readable
  | .object members, readable =>
    isCanonical_sortMembers (haveCanonical_canonicalMembers members readable)
  | .null, _ => rfl
  | .bool _, _ => rfl
  | .int _, _ => rfl
  | .float _, _ => rfl
  | .text _, _ => rfl
termination_by structural document => document

theorem areCanonical_canonicalItems : (items : List Json) → areReadable items = true →
    areCanonical (canonicalItems items) = true
  | [], _ => rfl
  | item :: rest, readable => by
    simp only [areReadable, Bool.and_eq_true] at readable
    simp [canonicalItems, areCanonical, isCanonical_canonical item readable.1,
      areCanonical_canonicalItems rest readable.2]
termination_by structural items => items

theorem haveCanonical_canonicalMembers : (members : List (String × Json)) →
    haveReadable members = true → haveCanonical (canonicalMembers members) = true
  | [], _ => rfl
  | member :: rest, readable => by
    simp only [haveReadable, Bool.and_eq_true] at readable
    simp [canonicalMembers, haveCanonical, hasCanonical_canonicalMember member readable.1,
      haveCanonical_canonicalMembers rest readable.2]
termination_by structural members => members

theorem hasCanonical_canonicalMember : (member : String × Json) → hasReadable member = true →
    hasCanonical (canonicalMember member) = true
  | (_, value), readable => isCanonical_canonical value readable
termination_by structural member => member

end

end Json

/-- A document in canonical form. -/
structure Payload where
  document : Json
  canonical : document.isCanonical = true

namespace Payload

/-- The canonical form of a document, unless a part of it is unreadable. -/
def ofJson? (document : Json) : Option Payload :=
  if readable : document.isReadable = true then
    some ⟨document.canonical, Json.isCanonical_canonical document readable⟩
  else
    none

instance : Inhabited Payload := ⟨⟨.null, rfl⟩⟩

end Payload

end Blackboard
