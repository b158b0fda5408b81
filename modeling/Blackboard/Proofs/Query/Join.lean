import Blackboard.Database
import Blackboard.Proofs.Query.Plan

/-!
# Queries answer their declarative meaning

A query is evaluated pattern by pattern, with a probe of the index for each
match found so far. `choices` enumerates instead, depth first, all choices of
one stored tuple for each pattern that fit. Both come to the same list of
matches (`Indexed.answer_found`), and the enumeration holds each satisfying
choice once, in the lexicographic order of positions. Hence the answer to a
query is what `Satisfies` says of the stored facts.
-/

namespace Blackboard

namespace Store

/-! ## Depth first -/

/-- What patterns make of one match, one pattern after the other. -/
def joined (store : Store) : List Claim → Match → List Match
  | [], m => [m]
  | pattern :: patterns, m => (store.extensions pattern m).flatMap (store.joined patterns)

/-- Joining breadth first finds the same matches in the same order; that it stops
as soon as no match is left loses none. -/
theorem joinAll_found (store : Store) (patterns : List Claim) (contexts : List Match) :
    (store.joinAll patterns contexts).found = contexts.flatMap (store.joined patterns) := by
  induction patterns generalizing contexts with
  | nil => simp [joinAll, joined]
  | cons pattern patterns ih =>
      have here : (store.join pattern contexts).found =
          contexts.flatMap (store.extensions pattern) := by
        simp [join, List.flatMap_map]
      have step : contexts.flatMap (store.joined (pattern :: patterns)) =
          (store.join pattern contexts).found.flatMap (store.joined patterns) := by
        rw [here, List.flatMap_assoc]
        rfl
      rw [step, joinAll]
      cases found : (store.join pattern contexts).found with
      | nil => simp [found]
      | cons first rest => simp [ih]

/-- All ways to extend a match by one fact for each pattern, with the facts
chosen and their positions. -/
def choices (facts : String → List Tuple) :
    List Claim → Match → List (List (Nat × Tuple) × Match)
  | [], m => [([], m)]
  | pattern :: patterns, m =>
    (facts pattern.name).zipIdx.flatMap fun placed =>
      match pattern.fit? m placed.1 with
      | none => []
      | some n => (choices facts patterns n).map fun chosen =>
          ((placed.2, placed.1) :: chosen.1, chosen.2)

theorem flatMap_filterMap_zipIdx {α β γ : Type} (xs : List α) (k : Nat) (f : α → Option β)
    (g : β → List γ) :
    (xs.filterMap f).flatMap g =
      (xs.zipIdx k).flatMap fun placed => ((f placed.1).map g).getD [] := by
  induction xs generalizing k with
  | nil => rfl
  | cons x xs ih =>
      rw [List.zipIdx_cons, List.flatMap_cons, ← ih]
      cases image : f x <;> simp [image]

theorem Indexed.joined_eq {store : Store} (indexed : store.Indexed) (patterns : List Claim)
    (m : Match) :
    store.joined patterns m =
      (choices (fun name => (store.tuples name).toList) patterns m).map Prod.snd := by
  induction patterns generalizing m with
  | nil => rfl
  | cons pattern patterns ih =>
      rw [joined, choices, indexed.extensions_eq, flatMap_filterMap_zipIdx _ 0, List.map_flatMap]
      refine congrArg (List.flatMap · _) (funext fun placed => ?_)
      cases pattern.fit? m placed.1 with
      | none => rfl
      | some n => simp [ih]

/-- The answer to a query, as an enumeration of choices. -/
theorem Indexed.answer_found {store : Store} (indexed : store.Indexed) (patterns : List Claim) :
    (store.answer patterns).found =
      (choices (fun name => (store.tuples name).toList) patterns ∅).map Prod.snd := by
  rw [answer, joinAll_found, ← indexed.joined_eq]
  simp

/-- A query of one pattern finds the tuples that fit it, in order. -/
theorem Indexed.answer_singleton_found {store : Store} (indexed : store.Indexed)
    (pattern : Claim) :
    (store.answer [pattern]).found =
      (store.tuples pattern.name).toList.filterMap (pattern.fit? ∅) := by
  have joined : store.joined [pattern] ∅ =
      (store.extensions pattern ∅).flatMap fun n => [n] := rfl
  rw [answer, joinAll_found, List.flatMap_singleton, joined, List.flatMap_singleton',
    indexed.extensions_eq]

/-! ## What is enumerated, and in which order -/

/-- The enumeration holds exactly the choices whose values fit. -/
theorem mem_choices_iff (facts : String → List Tuple) (patterns : List Claim) (m n : Match)
    (choice : List (Nat × Tuple)) :
    (choice, n) ∈ choices facts patterns m ↔
      Chosen facts patterns choice ∧
      List.Forall₂ (fun pattern tuple => tuple.length = pattern.args.length) patterns
        (choice.map Prod.snd) ∧
      m.fit? (pairings patterns (choice.map Prod.snd)) = some n := by
  induction patterns generalizing m choice with
  | nil =>
      simp only [choices, List.mem_singleton, Prod.mk.injEq, Chosen, List.forall₂_nil_left_iff,
        List.map_eq_nil_iff, pairings_nil, Match.fit?_nil, Option.some.injEq]
      constructor
      · rintro ⟨rfl, rfl⟩
        exact ⟨rfl, rfl, rfl⟩
      · rintro ⟨rfl, _, rfl⟩
        exact ⟨rfl, rfl⟩
  | cons pattern patterns ih =>
      rw [choices, List.mem_flatMap]
      constructor
      · rintro ⟨⟨tuple, position⟩, placed, chosen⟩
        cases fitted : pattern.fit? m tuple with
        | none => simp [fitted] at chosen
        | some next =>
            rw [fitted] at chosen
            obtain ⟨⟨rest, last⟩, member, restEq⟩ := List.mem_map.mp chosen
            obtain ⟨rfl, rfl⟩ := Prod.mk.inj restEq
            obtain ⟨stored, arities, fits⟩ := (ih next rest).mp member
            obtain ⟨arity, fitsHere⟩ := (pattern.fit?_eq_some_iff m next tuple).mp fitted
            refine ⟨.cons (List.mk_mem_zipIdx_iff_getElem?.mp placed) stored,
              .cons arity arities, ?_⟩
            rw [List.map_cons, pairings_cons, Match.fit?_append, fitsHere]
            exact fits
      · rintro ⟨stored, arities, fits⟩
        cases choice with
        | nil => cases stored
        | cons place rest =>
            rcases place with ⟨position, tuple⟩
            obtain ⟨placed, storedRest⟩ := List.forall₂_cons.mp stored
            obtain ⟨arity, aritiesRest⟩ := List.forall₂_cons.mp arities
            rw [List.map_cons, pairings_cons, Match.fit?_append] at fits
            obtain ⟨next, fitsHere, fitsRest⟩ := Option.bind_eq_some_iff.mp fits
            refine ⟨(tuple, position), List.mk_mem_zipIdx_iff_getElem?.mpr placed, ?_⟩
            rw [(pattern.fit?_eq_some_iff m next tuple).mpr ⟨arity, fitsHere⟩]
            exact List.mem_map.mpr
              ⟨(rest, n), (ih next rest).mpr ⟨storedRest, aritiesRest, fitsRest⟩, rfl⟩

theorem pairwise_lt_zipIdx {α : Type} (xs : List α) (k : Nat) :
    (xs.zipIdx k).Pairwise fun first second => first.2 < second.2 := by
  induction xs generalizing k with
  | nil => exact .nil
  | cons x xs ih =>
      refine .cons (fun placed member => ?_) (ih (k + 1))
      exact List.le_snd_of_mem_zipIdx member

/-- Choices come in the lexicographic order of the positions of their facts. -/
theorem pairwise_lt_choices (facts : String → List Tuple) (patterns : List Claim) (m : Match) :
    (choices facts patterns m).Pairwise fun first second =>
      first.1.map Prod.fst < second.1.map Prod.fst := by
  induction patterns generalizing m with
  | nil => simp [choices]
  | cons pattern patterns ih =>
      rw [choices, List.pairwise_flatMap]
      constructor
      · rintro ⟨tuple, position⟩ _
        cases pattern.fit? m tuple with
        | none => exact .nil
        | some n =>
            refine List.pairwise_map.mpr ((ih n).imp fun before => ?_)
            simpa using before
      · refine (pairwise_lt_zipIdx (facts pattern.name) 0).imp ?_
        rintro ⟨first, i⟩ ⟨second, j⟩ before ⟨early, _⟩ earlyMem ⟨late, _⟩ lateMem
        cases fittedFirst : pattern.fit? m first with
        | none => simp [fittedFirst] at earlyMem
        | some n =>
            cases fittedSecond : pattern.fit? m second with
            | none => simp [fittedSecond] at lateMem
            | some n' =>
                simp only [fittedFirst, fittedSecond, List.mem_map, Prod.mk.injEq]
                  at earlyMem lateMem
                rcases earlyMem with ⟨_, _, rfl, _⟩
                rcases lateMem with ⟨_, _, rfl, _⟩
                exact List.Lex.rel before

/-- Under the empty match the enumeration holds exactly the choices that satisfy
the patterns. -/
theorem mem_map_fst_choices_iff (facts : String → List Tuple) (patterns : List Claim)
    (choice : List (Nat × Tuple)) :
    choice ∈ (choices facts patterns ∅).map Prod.fst ↔
      Chosen facts patterns choice ∧ Satisfies patterns (choice.map Prod.snd) := by
  simp only [List.mem_map, Prod.exists, exists_and_right, exists_eq_right, mem_choices_iff]
  constructor
  · rintro ⟨n, stored, arity, fitted⟩
    exact ⟨stored, (Match.exists_fit?_empty_iff arity).mp ⟨n, fitted⟩⟩
  · rintro ⟨stored, satisfies⟩
    obtain ⟨n, fitted⟩ := (Match.exists_fit?_empty_iff satisfies.arity).mpr satisfies
    exact ⟨n, stored, satisfies.arity, fitted⟩

end Store

namespace Database

/-- A query finds one match for each choice of one stored fact for each pattern
that satisfies the patterns. The match binds exactly their variables, each to
its first value, and matches come in the lexicographic order of the positions
of the facts. That the index is probed, that the probed constant is not checked
again and that the join stops early makes no difference to this. -/
theorem query_finds_satisfying_choices (claims : List Claim) (captures : Captures)
    (patterns : List Claim) :
    ∃ choices : List (List (Nat × Tuple)),
      (∀ choice, choice ∈ choices ↔
        Chosen (Store.factsOf claims) patterns choice ∧
          Satisfies patterns (choice.map Prod.snd)) ∧
      (choices.map fun choice => choice.map Prod.fst).Pairwise (· < ·) ∧
      List.Forall₂
        (fun choice m => ∀ x, m.get? x = firstValue? x (pairings patterns (choice.map Prod.snd)))
        choices
        (({ store := .ofClaims claims, captures } : Database).query patterns).1 := by
  have facts : (fun name => ((Store.ofClaims claims).tuples name).toList) = Store.factsOf claims :=
    funext fun name => Store.tuples_ofClaims claims name
  refine ⟨(Store.choices (Store.factsOf claims) patterns ∅).map Prod.fst, ?_, ?_, ?_⟩
  · exact fun choice => Store.mem_map_fst_choices_iff _ _ choice
  · rw [List.map_map]
    exact List.pairwise_map.mpr (Store.pairwise_lt_choices _ patterns ∅)
  · change List.Forall₂ _ _ ((Store.ofClaims claims).answer patterns).found
    rw [(Store.indexed_ofClaims claims).answer_found, facts, List.forall₂_map_left_iff,
      List.forall₂_map_right_iff, List.forall₂_same]
    rintro ⟨choice, n⟩ member x
    obtain ⟨_, _, fitted⟩ := (Store.mem_choices_iff _ _ _ _ _).mp member
    simpa using Match.get?_of_fit?_eq_some fitted x

end Database

end Blackboard
