import Blackboard.Json.Canonical
import Mathlib.Data.List.Induction

/-!
# Canonical documents are read back

A document in canonical form is readable and is its own canonical form, so the document of
a payload is read back as that payload (`Payload.ofJson?_document`).
-/

namespace Blackboard

namespace Json

/-! ## Members that are sorted -/

/-- A member whose key comes after all others is put behind them. -/
theorem insertMember_of_last {key : String} {value : Json} {members : List (String × Json)}
    (last : ∀ member ∈ members, compare key member.1 = .gt) :
    insertMember key value members = members ++ [(key, value)] := by
  induction members with
  | nil => rfl
  | cons held rest ih =>
      rcases held with ⟨other, value'⟩
      have after : compare key other = .gt := last (other, value') List.mem_cons_self
      rw [insertMember, after]
      exact congrArg _ (ih fun member listed => last member (List.mem_cons_of_mem _ listed))

theorem ascending_iff_pairwise (members : List (String × Json)) :
    ascending members = true ↔
      members.Pairwise fun first second => compare first.1 second.1 = .lt := by
  induction members with
  | nil => simp [ascending]
  | cons member rest ih =>
      rw [ascending_cons, ih, List.pairwise_cons]
      refine and_congr_left fun sorted => ⟨fun before other listed => ?_, fun before => ?_⟩
      · cases rest with
        | nil => cases listed
        | cons first rest =>
            have here := before first rfl
            rcases List.mem_cons.mp listed with rfl | further
            · exact here
            · exact Std.TransCmp.lt_trans here (List.rel_of_pairwise_cons sorted further)
      · exact fun first isFirst => before first (List.mem_of_head? isFirst)

/-- Members that are sorted stay as they are. -/
theorem sortMembers_of_ascending {members : List (String × Json)}
    (sorted : ascending members = true) : sortMembers members = members := by
  rw [ascending_iff_pairwise] at sorted
  induction members using List.reverseRecOn with
  | nil => rfl
  | append_singleton members member ih =>
      obtain ⟨sortedBefore, _, last⟩ := List.pairwise_append.mp sorted
      have here : sortMembers (members ++ [member]) =
          insertMember member.1 member.2 (sortMembers members) := by
        simp [sortMembers]
      rw [here, ih sortedBefore]
      refine insertMember_of_last fun other listed => ?_
      exact Std.OrientedCmp.gt_iff_lt.mpr (last other listed member List.mem_cons_self)

/-! ## Canonical documents -/

mutual

/-- A canonical document is readable, and it is its own canonical form. -/
theorem canonical_of_isCanonical : (document : Json) → document.isCanonical = true →
    document.canonical = document ∧ document.isReadable = true
  | .array items, canonical => by
    obtain ⟨same, readable⟩ := canonicalItems_of_areCanonical items canonical
    exact ⟨congrArg Json.array same, readable⟩
  | .object members, canonical => by
    obtain ⟨sorted, parts⟩ := Bool.and_eq_true_iff.mp canonical
    obtain ⟨same, readable⟩ := canonicalMembers_of_haveCanonical members parts
    refine ⟨?_, readable⟩
    rw [Json.canonical, same, sortMembers_of_ascending sorted]
  | .null, _ => ⟨rfl, rfl⟩
  | .bool _, _ => ⟨rfl, rfl⟩
  | .int _, _ => ⟨rfl, rfl⟩
  | .float _, _ => ⟨rfl, rfl⟩
  | .text _, _ => ⟨rfl, rfl⟩
termination_by structural document => document

theorem canonicalItems_of_areCanonical : (items : List Json) → areCanonical items = true →
    canonicalItems items = items ∧ areReadable items = true
  | [], _ => ⟨rfl, rfl⟩
  | item :: rest, canonical => by
    obtain ⟨here, further⟩ := Bool.and_eq_true_iff.mp canonical
    obtain ⟨same, readable⟩ := canonical_of_isCanonical item here
    obtain ⟨sameRest, readableRest⟩ := canonicalItems_of_areCanonical rest further
    simp [canonicalItems, areReadable, same, readable, sameRest, readableRest]
termination_by structural items => items

theorem canonicalMembers_of_haveCanonical : (members : List (String × Json)) →
    haveCanonical members = true →
    canonicalMembers members = members ∧ haveReadable members = true
  | [], _ => ⟨rfl, rfl⟩
  | member :: rest, canonical => by
    obtain ⟨here, further⟩ := Bool.and_eq_true_iff.mp canonical
    obtain ⟨same, readable⟩ := canonicalMember_of_hasCanonical member here
    obtain ⟨sameRest, readableRest⟩ := canonicalMembers_of_haveCanonical rest further
    simp [canonicalMembers, haveReadable, same, readable, sameRest, readableRest]
termination_by structural members => members

theorem canonicalMember_of_hasCanonical : (member : String × Json) →
    hasCanonical member = true → canonicalMember member = member ∧ hasReadable member = true
  | (key, value), canonical => by
    obtain ⟨same, readable⟩ := canonical_of_isCanonical value canonical
    exact ⟨congrArg (Prod.mk key) same, readable⟩
termination_by structural member => member

end

end Json

/-- The document of a payload is read back as the payload. -/
theorem Payload.ofJson?_document (payload : Payload) :
    Payload.ofJson? payload.document = some payload := by
  obtain ⟨same, readable⟩ := Json.canonical_of_isCanonical payload.document payload.canonical
  unfold ofJson?
  rw [dif_pos readable]
  cases payload
  exact congrArg some (by simpa using same)

end Blackboard
