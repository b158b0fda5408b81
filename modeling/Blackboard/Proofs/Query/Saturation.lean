import Blackboard.Proofs.Query.Join

/-!
# Facts that add nothing

A fact that is already contained in a store can be inserted again, also as an
equal variant, without making a conjunction match that did not: every tuple of a
choice can be replaced by one that is alike value by value (`Satisfies.of_alike`).
A value is alike itself, which covers the NaNs that a stored tuple may hold.
-/

namespace Blackboard

/-! ## Alike tuples satisfy the same patterns -/

/-- Tuples that are alike value by value. -/
def AlikeTuples (first second : Tuple) : Prop := List.Forall₂ Value.Alike first second

theorem AlikeTuples.refl (tuple : Tuple) : AlikeTuples tuple tuple :=
  List.forall₂_same.mpr fun value _ => Value.Alike.refl value

theorem AlikeTuples.of_beq {first second : Tuple} (equal : (first == second) = true) :
    AlikeTuples first second :=
  ((Store.beq_tuple_iff first second).mp equal).imp fun _ _ same => .inr same

/-- The same argument beside values that are alike. -/
def AlikePairs (first second : Arg × Value) : Prop :=
  first.1 = second.1 ∧ Value.Alike first.2 second.2

theorem alikePairs_zip (args : List Arg) {first second : Tuple}
    (alike : AlikeTuples first second) :
    List.Forall₂ AlikePairs (args.zip first) (args.zip second) := by
  induction alike generalizing args with
  | nil => simp
  | cons valueAlike _ ih =>
      cases args with
      | nil => exact .nil
      | cons arg args => exact .cons ⟨rfl, valueAlike⟩ (ih args)

theorem alikePairs_pairings (patterns : List Claim) {first second : List Tuple}
    (alike : List.Forall₂ AlikeTuples first second) :
    List.Forall₂ AlikePairs (pairings patterns first) (pairings patterns second) := by
  induction alike generalizing patterns with
  | nil => cases patterns <;> exact .nil
  | cons tupleAlike _ ih =>
      cases patterns with
      | nil => exact .nil
      | cons pattern patterns =>
          exact List.rel_append (alikePairs_zip pattern.args tupleAlike) (ih patterns)

theorem exists_alike_of_mem {first second : List (Arg × Value)}
    (alike : List.Forall₂ AlikePairs first second) {pair : Arg × Value} (member : pair ∈ first) :
    ∃ other ∈ second, AlikePairs pair other := by
  induction alike with
  | nil => cases member
  | cons pairAlike _ ih =>
      rcases List.mem_cons.mp member with rfl | further
      · exact ⟨_, List.mem_cons_self, pairAlike⟩
      · obtain ⟨other, otherMem, otherAlike⟩ := ih further
        exact ⟨other, List.mem_cons_of_mem _ otherMem, otherAlike⟩

theorem exists_alike_split {before after second : List (Arg × Value)} {pair : Arg × Value}
    (alike : List.Forall₂ AlikePairs (before ++ pair :: after) second) :
    ∃ before' pair' after', second = before' ++ pair' :: after' ∧
      List.Forall₂ AlikePairs before before' ∧ AlikePairs pair pair' := by
  induction before generalizing second with
  | nil =>
      obtain ⟨pair', after', pairAlike, _, rfl⟩ := List.forall₂_cons_left_iff.mp alike
      exact ⟨[], pair', after', rfl, .nil, pairAlike⟩
  | cons earlier before ih =>
      obtain ⟨earlier', rest, earlierAlike, restAlike, rfl⟩ := List.forall₂_cons_left_iff.mp alike
      obtain ⟨before', pair', after', rfl, beforeAlike, pairAlike⟩ := ih restAlike
      exact ⟨earlier' :: before', pair', after', rfl, .cons earlierAlike beforeAlike, pairAlike⟩

/-- Alike tuples bind a variable to values that are alike, if they bind it. -/
theorem firstValue?_rel {first second : List (Arg × Value)}
    (alike : List.Forall₂ AlikePairs first second) (x : String) :
    Option.Rel Value.Alike (firstValue? x first) (firstValue? x second) := by
  induction alike with
  | nil => exact .none
  | @cons pair pair' _ _ pairAlike _ ih =>
      rcases pair with ⟨arg, here⟩
      rcases pair' with ⟨arg', here'⟩
      rcases pairAlike with ⟨argEq, hereAlike⟩
      obtain rfl : arg = arg' := argEq
      cases arg with
      | val constant =>
          rw [firstValue?_val, firstValue?_val]
          exact ih
      | var y =>
          rw [firstValue?_var, firstValue?_var]
          by_cases same : y = x
          · rw [if_pos same, if_pos same]
            exact .some hereAlike
          · rw [if_neg same, if_neg same]
            exact ih

/-- Tuples that are alike satisfy the same patterns. -/
theorem Satisfies.of_alike {patterns : List Claim} {first second : List Tuple}
    (alike : List.Forall₂ AlikeTuples first second) (satisfies : Satisfies patterns second) :
    Satisfies patterns first where
  arity := by
    have lengths : List.Forall₂ (fun first second : Tuple => second.length = first.length)
        first second := alike.imp fun _ _ tupleAlike => tupleAlike.length_eq.symm
    have arity := satisfies.arity
    clear alike satisfies
    induction lengths generalizing patterns with
    | nil =>
        cases arity
        exact .nil
    | cons lengthEq _ ih =>
        cases arity with
        | cons here rest => exact .cons (lengthEq.symm.trans here) (ih rest)
  constants := by
    intro constant value member
    obtain ⟨⟨arg, other⟩, otherMem, argEq, valueAlike⟩ :=
      exists_alike_of_mem (alikePairs_pairings patterns alike) member
    obtain rfl : Arg.val constant = arg := argEq
    exact valueAlike.symm.beq (.refl constant) (satisfies.constants constant other otherMem)
  occurrences := by
    intro before x value after split first found
    have pairsAlike := alikePairs_pairings patterns alike
    rw [split] at pairsAlike
    obtain ⟨before', ⟨arg, value'⟩, after', split', beforeAlike, argEq, valueAlike⟩ :=
      exists_alike_split pairsAlike
    obtain rfl : Arg.var x = arg := argEq
    have firstAlike := firstValue?_rel beforeAlike x
    rw [found] at firstAlike
    cases found' : firstValue? x before' with
    | none =>
        rw [found'] at firstAlike
        cases firstAlike
    | some first' =>
        rw [found'] at firstAlike
        cases firstAlike with
        | some alike =>
            exact valueAlike.symm.beq alike.symm
              (satisfies.occurrences before' x value' after' split' first' found')

namespace Store

/-! ## Answers and draws -/

/-- Stored tuples, one for each pattern and of its name. -/
def Draws (store : Store) (patterns : List Claim) (tuples : List Tuple) : Prop :=
  List.Forall₂ (fun pattern tuple => tuple ∈ (store.tuples pattern.name).toList) patterns tuples

/-- Stored tuples are the tuples of a choice, for each of them has a position. -/
theorem Draws.exists_choice {store : Store} {patterns : List Claim} {tuples : List Tuple}
    (drawn : store.Draws patterns tuples) :
    ∃ choice, Chosen (fun name => (store.tuples name).toList) patterns choice ∧
      choice.map Prod.snd = tuples := by
  induction drawn with
  | nil => exact ⟨[], .nil, rfl⟩
  | cons member _ ih =>
      obtain ⟨position, held⟩ := List.mem_iff_getElem?.mp member
      rcases ih with ⟨choice, chosen, rfl⟩
      exact ⟨(position, _) :: choice, .cons held chosen, rfl⟩

/-- A match that is found comes from stored tuples that satisfy the patterns, and binds
every variable to its first value among them. -/
theorem Indexed.exists_draw_of_mem_answer_found {store : Store} (indexed : store.Indexed)
    {patterns : List Claim} {m : Match} (found : m ∈ (store.answer patterns).found) :
    ∃ tuples, store.Draws patterns tuples ∧ Satisfies patterns tuples ∧
      ∀ x, m.get? x = firstValue? x (pairings patterns tuples) := by
  rw [indexed.answer_found] at found
  obtain ⟨⟨choice, n⟩, member, rfl⟩ := List.mem_map.mp found
  obtain ⟨chosen, arity, fitted⟩ := (mem_choices_iff _ _ _ _ _).mp member
  refine ⟨choice.map Prod.snd, ?_, (Match.exists_fit?_empty_iff arity).mp ⟨n, fitted⟩, ?_⟩
  · exact List.forall₂_map_right_iff.mpr (chosen.imp fun _ _ held => List.mem_of_getElem? held)
  · intro x
    simpa using Match.get?_of_fit?_eq_some fitted x

/-- Stored tuples that satisfy the patterns are found. -/
theorem Indexed.exists_mem_answer_found {store : Store} (indexed : store.Indexed)
    {patterns : List Claim} {tuples : List Tuple} (drawn : store.Draws patterns tuples)
    (satisfies : Satisfies patterns tuples) :
    ∃ m ∈ (store.answer patterns).found,
      ∀ x, m.get? x = firstValue? x (pairings patterns tuples) := by
  obtain ⟨n, fitted⟩ := (Match.exists_fit?_empty_iff satisfies.arity).mpr satisfies
  obtain ⟨choice, chosen, rfl⟩ := drawn.exists_choice
  refine ⟨n, ?_, fun x => by simpa using Match.get?_of_fit?_eq_some fitted x⟩
  rw [indexed.answer_found]
  exact List.mem_map.mpr
    ⟨(choice, n), (mem_choices_iff _ _ _ _ _).mpr ⟨chosen, satisfies.arity, fitted⟩, rfl⟩

/-- Nothing is found exactly if no stored tuples satisfy the patterns. -/
theorem Indexed.answer_found_eq_nil_iff {store : Store} (indexed : store.Indexed)
    (patterns : List Claim) :
    (store.answer patterns).found = [] ↔
      ∀ tuples, store.Draws patterns tuples → ¬ Satisfies patterns tuples := by
  rw [List.eq_nil_iff_forall_not_mem]
  constructor
  · intro nothing tuples drawn satisfies
    obtain ⟨m, found, _⟩ := indexed.exists_mem_answer_found drawn satisfies
    exact nothing m found
  · intro nothing m found
    obtain ⟨tuples, drawn, satisfies, _⟩ := indexed.exists_draw_of_mem_answer_found found
    exact nothing tuples drawn satisfies

/-! ## Facts that are contained already -/

/-- After the insertion of a claim that adds nothing new, every stored tuple is
alike one that was stored before. -/
theorem Indexed.exists_alike_of_mem_insert {store : Store} (indexed : store.Indexed)
    {claim : Claim} (known : accepts claim = true → store.contains claim = true) {name : String}
    {tuple : Tuple} (stored : tuple ∈ ((store.insert claim).tuples name).toList) :
    ∃ earlier ∈ (store.tuples name).toList, AlikeTuples earlier tuple := by
  rw [tuples_insert] at stored
  rcases List.mem_append.mp stored with before | added
  · exact ⟨tuple, before, .refl tuple⟩
  · by_cases fact : claim.IsFact
    · obtain ⟨values, valuesEq, earlier, earlierMem, equal⟩ :=
        (indexed.contains_iff claim).mp (known ((accepts_iff_isFact claim).mpr fact))
      rw [factsOf_singleton_of_isFact fact valuesEq] at added
      by_cases named : claim.name = name
      · rw [if_pos named] at added
        obtain rfl := List.mem_singleton.mp added
        exact ⟨earlier, named ▸ earlierMem, .of_beq equal⟩
      · rw [if_neg named] at added
        cases added
    · rw [factsOf_singleton_of_not_isFact fact] at added
      cases added

/-- What is drawn after the insertion of a claim that adds nothing new is alike what could
be drawn before. -/
theorem Indexed.exists_alike_draw {store : Store} (indexed : store.Indexed) {claim : Claim}
    (known : accepts claim = true → store.contains claim = true) {patterns : List Claim}
    {tuples : List Tuple} (drawn : (store.insert claim).Draws patterns tuples) :
    ∃ first, store.Draws patterns first ∧ List.Forall₂ AlikeTuples first tuples := by
  induction drawn with
  | nil => exact ⟨[], .nil, .nil⟩
  | cons member _ ih =>
      obtain ⟨tuple, tupleMem, alike⟩ := indexed.exists_alike_of_mem_insert known member
      rcases ih with ⟨first, firstDrawn, firstAlike⟩
      exact ⟨tuple :: first, .cons tupleMem firstDrawn, .cons alike firstAlike⟩

/-- An empty answer stays empty when a claim is inserted that is refused or
already contained. -/
theorem Indexed.answer_found_insert_eq_nil {store : Store} (indexed : store.Indexed)
    {claim : Claim} (known : accepts claim = true → store.contains claim = true)
    {patterns : List Claim} (empty : (store.answer patterns).found = []) :
    ((store.insert claim).answer patterns).found = [] := by
  rw [(indexed.insert claim).answer_found_eq_nil_iff]
  intro tuples drawn satisfies
  obtain ⟨first, firstDrawn, alike⟩ := indexed.exists_alike_draw known drawn
  exact (indexed.answer_found_eq_nil_iff patterns).mp empty first firstDrawn
    (satisfies.of_alike alike)

end Store

end Blackboard
