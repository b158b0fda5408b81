import Blackboard.Proofs.Query.Commutation
import Blackboard.Proofs.Query.Saturation
import Blackboard.Proofs.Store.Refinement

/-!
# Answers to a growing store

A fact that is inserted can take part in a join at every pattern of its name. The matches
that were found before are found again, in the same order, among those that it adds
(`Store.Indexed.answer_found_sublist`). If the fact was contained already, what it adds only
repeats them, up to the variants of equal values
(`Store.Indexed.exists_alike_of_mem_insert_answer`). So a fact that is contained cannot make a
rule fire that did not, and the search for new facts may stop at it (`Database.query_saturates`).
-/

namespace Blackboard

namespace Store

/-! ## More facts -/

/-- No tuple is lost, and those that are kept stay in order. -/
def Within (store later : Store) : Prop :=
  ∀ name, (store.tuples name).toList.Sublist (later.tuples name).toList

theorem within_insert (store : Store) (claim : Claim) : store.Within (store.insert claim) := by
  intro name
  rw [tuples_insert]
  exact List.sublist_append_left _ _

section Grown

variable {store later : Store} (indexed : store.Indexed) (laterIndexed : later.Indexed)
  (within : store.Within later)

include indexed laterIndexed within

theorem Indexed.extensions_sublist (pattern : Claim) (m : Match) :
    (store.extensions pattern m).Sublist (later.extensions pattern m) := by
  rw [indexed.extensions_eq, laterIndexed.extensions_eq]
  exact (within pattern.name).filterMap _

/-- The first pattern passes on at least the same matches, and the further patterns make at
least the same of each of them. -/
theorem Indexed.joined_sublist (patterns : List Claim) (m : Match) :
    (store.joined patterns m).Sublist (later.joined patterns m) := by
  induction patterns generalizing m with
  | nil => exact .refl _
  | cons pattern patterns ih =>
      have further : ((store.extensions pattern m).flatMap (store.joined patterns)).Sublist
          ((store.extensions pattern m).flatMap (later.joined patterns)) :=
        List.Sublist.flatMap_right _ fun n _ => ih n
      exact further.trans
        ((indexed.extensions_sublist laterIndexed within pattern m).flatMap _)

/-- What is found is found again, in the same order, when there are more facts. -/
theorem Indexed.answer_found_sublist (patterns : List Claim) :
    (store.answer patterns).found.Sublist (later.answer patterns).found := by
  rw [answer, answer, joinAll_found, joinAll_found, List.flatMap_singleton,
    List.flatMap_singleton]
  exact indexed.joined_sublist laterIndexed within patterns ∅

end Grown

end Store

/-! ## Facts that were contained -/

/-- Alike tuples bind the same variables, to values that are alike. -/
theorem Match.alike_of_pairings {patterns : List Claim} {first second : List Tuple}
    (alike : List.Forall₂ AlikeTuples first second) {m n : Match}
    (bound : ∀ x, m.get? x = firstValue? x (pairings patterns first))
    (bound' : ∀ x, n.get? x = firstValue? x (pairings patterns second)) : m.Alike n := by
  intro x
  rw [bound, bound']
  exact firstValue?_rel (alikePairs_pairings patterns alike) x

/-- A match that is found after the insertion of a claim that adds nothing new is alike one
that was found before: the tuples that it comes from can be exchanged for alike ones. -/
theorem Store.Indexed.exists_alike_of_mem_insert_answer {store : Store}
    (indexed : store.Indexed) {claim : Claim}
    (known : accepts claim = true → store.contains claim = true) {patterns : List Claim}
    {m : Match} (found : m ∈ ((store.insert claim).answer patterns).found) :
    ∃ earlier ∈ (store.answer patterns).found, earlier.Alike m := by
  obtain ⟨tuples, drawn, satisfies, bound⟩ :=
    (indexed.insert claim).exists_draw_of_mem_answer_found found
  obtain ⟨first, firstDrawn, alike⟩ := indexed.exists_alike_draw known drawn
  obtain ⟨earlier, earlierFound, earlierBound⟩ :=
    indexed.exists_mem_answer_found firstDrawn (satisfies.of_alike alike)
  exact ⟨earlier, earlierFound, Match.alike_of_pairings alike earlierBound bound⟩

namespace Database

/-- A claim that is inserted takes no match away and changes none: those that were found are
found again, in the same order. If the claim was contained, every match that is found is alike
one that was found before, so where nothing was found nothing is. -/
theorem query_saturates (history : List Insertion) (captures : Captures) (claim : Claim)
    (patterns : List Claim) :
    let db : Database := { store := .ofHistory history, captures }
    let before := (db.query patterns).1
    let after := ((db.insert claim).query patterns).1
    before.Sublist after ∧
      (db.contains claim = true →
        (∀ m ∈ after, ∃ earlier ∈ before, earlier.Alike m) ∧ (before = [] → after = [])) := by
  intro db before after
  have indexed : db.store.Indexed := Store.indexed_ofHistory history
  have within : db.store.Within (db.store.insert claim) := db.store.within_insert claim
  refine ⟨indexed.answer_found_sublist (indexed.insert claim) within patterns, fun contained => ?_⟩
  have known : Store.accepts claim = true → db.store.contains claim = true := fun _ => contained
  constructor
  · exact fun m found => indexed.exists_alike_of_mem_insert_answer known found
  · exact fun empty => indexed.answer_found_insert_eq_nil known empty

/-- Two facts about the same amount, one of them inserted again with an equal number: a pattern
that is joined with itself finds five matches more, each of them alike one of the four that it
found before. -/
theorem query_saturates_of_equal_number :
    let history : List Insertion :=
      [.plain (having "apples" (.val (.text "Homer")) (.val (.int 2))),
        .checked (having "apples" (.val (.text "Bart")) (.val (.int 2)))]
    let again := having "apples" (.val (.text "Homer")) (.val (.float ⟨0x4000000000000000⟩))
    let patterns := [having "apples" (.var "x") (.var "n"), having "apples" (.var "y") (.var "n")]
    let db : Database := { store := .ofHistory history }
    let before := (db.query patterns).1
    let after := ((db.insert again).query patterns).1
    db.contains again = true ∧ before.length = 4 ∧ after.length = 9 ∧ before.Sublist after ∧
      ∀ m ∈ after, ∃ earlier ∈ before, earlier.Alike m := by
  intro history again patterns db before after
  have contained : db.contains again = true := by decide +kernel
  obtain ⟨kept, saturated⟩ := query_saturates history ∅ again patterns
  exact ⟨contained, by decide +kernel, by decide +kernel, kept, (saturated contained).1⟩

end Database

end Blackboard
