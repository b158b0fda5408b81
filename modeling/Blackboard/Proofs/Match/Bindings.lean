import Blackboard.Match
import Blackboard.Proofs.Query.Meaning
import Mathlib.Data.List.Induction

/-!
# The bindings of a match

The bindings of a match come in strictly ascending order of the variables, and a list in
that order is the list of the bindings of the match that is made of it
(`Match.toList_ofList`).
-/

namespace Blackboard.Match

theorem mem_toList_iff (m : Match) (x : String) (value : Value) :
    (x, value) ∈ m.toList ↔ m.get? x = some value :=
  Std.ExtTreeMap.mem_toList_iff_getElem?_eq_some

theorem ascending_toList (m : Match) :
    m.toList.Pairwise fun first second => compare first.1 second.1 = .lt :=
  Std.ExtTreeMap.ordered_keys_toList

/-- A match that is made of bindings of distinct variables has exactly these. -/
theorem get?_ofList_eq_some_iff {bindings : List (String × Value)}
    (distinct : bindings.Pairwise fun first second => first.1 ≠ second.1) (x : String)
    (value : Value) : (ofList bindings).get? x = some value ↔ (x, value) ∈ bindings := by
  induction bindings using List.reverseRecOn with
  | nil => simp [ofList]
  | append_singleton bindings binding ih =>
      obtain ⟨distinctBefore, _, new⟩ := List.pairwise_append.mp distinct
      have here : ofList (bindings ++ [binding]) = (ofList bindings).bind binding.1 binding.2 := by
        simp [ofList]
      rw [here, get?_bind, List.mem_append, List.mem_singleton]
      by_cases same : binding.1 = x
      · subst same
        have absent : (binding.1, value) ∉ bindings := fun listed =>
          new _ listed binding List.mem_cons_self rfl
        simp [absent, Prod.ext_iff, eq_comm]
      · have other : (x, value) ≠ binding := fun equal => same (equal ▸ rfl)
        simp [same, other, ih distinctBefore]

/-- Bindings in ascending order are those of the match that is made of them. -/
theorem toList_ofList {bindings : List (String × Value)}
    (ascending : bindings.Pairwise fun first second => compare first.1 second.1 = .lt) :
    (ofList bindings).toList = bindings := by
  have distinct {list : List (String × Value)}
      (sorted : list.Pairwise fun first second => compare first.1 second.1 = .lt) :
      list.Pairwise fun first second => first.1 ≠ second.1 :=
    sorted.imp fun before same => by simp [same] at before
  have nodup {list : List (String × Value)}
      (sorted : list.Pairwise fun first second => compare first.1 second.1 = .lt) : list.Nodup :=
    (distinct sorted).imp fun different same => different (congrArg Prod.fst same)
  have perm : (ofList bindings).toList.Perm bindings := by
    refine (List.perm_ext_iff_of_nodup (nodup (ascending_toList _)) (nodup ascending)).mpr ?_
    rintro ⟨x, value⟩
    rw [mem_toList_iff, get?_ofList_eq_some_iff (distinct ascending)]
  refine perm.eq_of_pairwise ?_ (ascending_toList _) ascending
  exact fun _ _ _ _ before after => absurd after (Std.OrientedCmp.not_lt_of_lt before)

end Blackboard.Match
