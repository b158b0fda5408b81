import Blackboard.Proofs.Query.Misses
import Blackboard.Proofs.Store.Novelty
import Mathlib.Data.List.Perm.Basic

/-!
# The order of facts

The order in which facts were stored decides the order of an answer, and nothing else.
From stores that hold the same facts a query finds the same matches and misses the same
patterns, as often, in another order (`SameFacts.answer_found`, `SameFacts.failures`).
-/

namespace Blackboard

namespace Store

/-- Stores that hold the same facts, each as often, in any order. -/
structure SameFacts (first second : Store) : Prop where
  left : first.Indexed
  right : second.Indexed
  perm : ∀ name, (first.facts name).Perm (second.facts name)

theorem SameFacts.refl {store : Store} (indexed : store.Indexed) : store.SameFacts store where
  left := indexed
  right := indexed
  perm _ := .refl _

theorem factsOf_perm {first second : List Claim} (perm : first.Perm second) (name : String) :
    (factsOf first name).Perm (factsOf second name) :=
  (perm.filter _).filterMap _

namespace SameFacts

variable {first second : Store} (same : first.SameFacts second)

include same

theorem insertAll {claims others : List Claim} (perm : claims.Perm others) :
    (first.insertAll claims).SameFacts (second.insertAll others) where
  left := same.left.insertAll claims
  right := same.right.insertAll others
  perm name := by
    rw [facts, facts, tuples_insertAll, tuples_insertAll]
    exact (same.perm name).append (factsOf_perm perm name)

theorem contains (claim : Claim) : first.contains claim = second.contains claim := by
  rw [Bool.eq_iff_iff, same.left.contains_iff, same.right.contains_iff]
  have members (tuple : Tuple) : tuple ∈ (first.tuples claim.name).toList ↔
      tuple ∈ (second.tuples claim.name).toList := (same.perm claim.name).mem_iff
  simp only [members]

/-! ## Matches -/

theorem extensions (pattern : Claim) (m : Match) :
    (first.extensions pattern m).Perm (second.extensions pattern m) := by
  rw [same.left.extensions_eq, same.right.extensions_eq]
  exact (same.perm pattern.name).filterMap _

theorem joined (patterns : List Claim) (m : Match) :
    (first.joined patterns m).Perm (second.joined patterns m) := by
  induction patterns generalizing m with
  | nil => exact .refl _
  | cons pattern patterns ih => exact (same.extensions pattern m).flatMap fun n _ => ih n

theorem answer_found (patterns : List Claim) :
    (first.answer patterns).found.Perm (second.answer patterns).found := by
  unfold answer
  rw [joinAll_found, joinAll_found]
  exact .flatMap_left _ fun m _ => same.joined patterns m

/-! ## Misses -/

theorem unmatched_iff (pattern : Claim) (context : Match) :
    Unmatched first.facts pattern context ↔ Unmatched second.facts pattern context :=
  forall_congr' fun _ => imp_congr_left (same.perm pattern.name).mem_iff

theorem choices (patterns : List Claim) (m : Match) :
    ((choices first.facts patterns m).map Prod.snd).Perm
      ((Store.choices second.facts patterns m).map Prod.snd) := by
  have left : first.joined patterns m = (Store.choices first.facts patterns m).map Prod.snd :=
    same.left.joined_eq patterns m
  have right : second.joined patterns m = (Store.choices second.facts patterns m).map Prod.snd :=
    same.right.joined_eq patterns m
  rw [← left, ← right]
  exact same.joined patterns m

theorem failures (patterns : List Claim) :
    (failures first.facts patterns).Perm (Store.failures second.facts patterns) := by
  apply List.Perm.flatMap_left
  rintro ⟨pattern, position⟩ _
  have sameTest : (fun context => decide (Unmatched first.facts pattern context)) =
      fun context => decide (Unmatched second.facts pattern context) :=
    funext fun context => decide_eq_decide.mpr (same.unmatched_iff pattern context)
  dsimp only
  rw [sameTest]
  exact ((same.choices (patterns.take position) ∅).filter _).map _

end SameFacts

end Store

end Blackboard
