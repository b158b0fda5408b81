import Blackboard.Proofs.Value.Equality
import Blackboard.Query
import Mathlib.Data.List.Forall2

/-!
# The meaning of a conjunction

A conjunction of patterns is satisfied by a choice of one tuple for each
pattern. `Satisfies` says when, without an order of evaluation: arities agree,
constants are equal to the values beside them, and every later occurrence of a
variable is equal to the first. `Match.fit?` decides this from left to right
and binds each variable at its first occurrence (`exists_fit?_empty_iff`,
`get?_of_fit?_eq_some`).
-/

namespace Blackboard

/-! ## Arguments beside values -/

/-- The arguments of patterns beside the values of the tuples chosen for them,
in reading order. -/
def pairings (patterns : List Claim) (tuples : List Tuple) : List (Arg × Value) :=
  (patterns.zip tuples).flatMap fun chosen => chosen.1.args.zip chosen.2

@[simp]
theorem pairings_nil (tuples : List Tuple) : pairings [] tuples = [] := rfl

@[simp]
theorem pairings_cons (pattern : Claim) (patterns : List Claim) (tuple : Tuple)
    (tuples : List Tuple) :
    pairings (pattern :: patterns) (tuple :: tuples) =
      pattern.args.zip tuple ++ pairings patterns tuples := rfl

/-- The value beside the first occurrence of a variable. -/
def firstValue? (x : String) (pairs : List (Arg × Value)) : Option Value :=
  pairs.findSome? fun pair => if pair.1.variableName? = some x then some pair.2 else none

@[simp]
theorem firstValue?_nil (x : String) : firstValue? x [] = none := rfl

@[simp]
theorem firstValue?_val (x : String) (constant value : Value) (rest : List (Arg × Value)) :
    firstValue? x ((.val constant, value) :: rest) = firstValue? x rest := by
  simp [firstValue?, Arg.variableName?]

theorem firstValue?_var (x y : String) (value : Value) (rest : List (Arg × Value)) :
    firstValue? x ((.var y, value) :: rest) =
      if y = x then some value else firstValue? x rest := by
  by_cases same : y = x <;> simp [firstValue?, Arg.variableName?, same]

/-- Tuples satisfy patterns, one tuple for each. -/
structure Satisfies (patterns : List Claim) (tuples : List Tuple) : Prop where
  arity : List.Forall₂ (fun pattern tuple => tuple.length = pattern.args.length) patterns tuples
  constants : ∀ constant value, (Arg.val constant, value) ∈ pairings patterns tuples →
    (value == constant) = true
  occurrences : ∀ before x value after,
    pairings patterns tuples = before ++ (Arg.var x, value) :: after →
      ∀ first, firstValue? x before = some first → (value == first) = true

/-- A choice of one stored tuple for each pattern, with its position among the
facts of the pattern's name. -/
def Chosen (facts : String → List Tuple) (patterns : List Claim) (choice : List (Nat × Tuple)) :
    Prop :=
  List.Forall₂ (fun pattern place => (facts pattern.name)[place.1]? = some place.2) patterns choice

/-! ## Matches -/

namespace Match

@[simp]
theorem get?_empty (x : String) : (∅ : Match).get? x = none := by
  change (∅ : Std.ExtTreeMap String Value)[x]? = none
  simp

theorem get?_bind (m : Match) (x y : String) (value : Value) :
    (m.bind x value).get? y = if x = y then some value else m.get? y := by
  unfold get? bind
  rw [Std.ExtTreeMap.getElem?_insert]
  simp only [Std.LawfulEqCmp.compare_eq_iff_eq]

/-- Fits values to the arguments beside them, from left to right, under a match:
constants and bound variables have to be equal, other variables are bound. -/
def fit? (m : Match) : List (Arg × Value) → Option Match
  | [] => some m
  | (.val constant, value) :: rest => if value == constant then m.fit? rest else none
  | (.var x, value) :: rest =>
    match m.get? x with
    | some bound => if value == bound then m.fit? rest else none
    | none => (m.bind x value).fit? rest

@[simp]
theorem fit?_nil (m : Match) : m.fit? [] = some m := rfl

theorem fit?_val (m : Match) (constant value : Value) (rest : List (Arg × Value)) :
    m.fit? ((.val constant, value) :: rest) =
      if value == constant then m.fit? rest else none := rfl

theorem fit?_var_of_bound {m : Match} {x : String} {bound : Value} (got : m.get? x = some bound)
    (value : Value) (rest : List (Arg × Value)) :
    m.fit? ((.var x, value) :: rest) = if value == bound then m.fit? rest else none := by
  rw [fit?, got]

theorem fit?_var_of_unbound {m : Match} {x : String} (got : m.get? x = none) (value : Value)
    (rest : List (Arg × Value)) :
    m.fit? ((.var x, value) :: rest) = (m.bind x value).fit? rest := by
  rw [fit?, got]

/-- Values are fitted to the patterns of a conjunction one pattern at a time. -/
theorem fit?_append (m : Match) (first second : List (Arg × Value)) :
    m.fit? (first ++ second) = (m.fit? first).bind fun n => n.fit? second := by
  induction first generalizing m with
  | nil => rfl
  | cons pair first ih =>
      rcases pair with ⟨arg, value⟩
      cases arg with
      | val constant =>
          rw [List.cons_append, fit?_val, fit?_val]
          split
          · exact ih m
          · rfl
      | var x =>
          cases got : m.get? x with
          | some bound =>
              rw [List.cons_append, fit?_var_of_bound got, fit?_var_of_bound got]
              split
              · exact ih m
              · rfl
          | none =>
              rw [List.cons_append, fit?_var_of_unbound got, fit?_var_of_unbound got]
              exact ih _

/-- Pairs fit under a match, whatever order they are looked at. -/
structure Fits (m : Match) (pairs : List (Arg × Value)) : Prop where
  constants : ∀ constant value, (Arg.val constant, value) ∈ pairs → (value == constant) = true
  occurrences : ∀ before x value after, pairs = before ++ (Arg.var x, value) :: after →
    ∀ first, (m.get? x).or (firstValue? x before) = some first → (value == first) = true

theorem fits_nil (m : Match) : m.Fits [] where
  constants := by simp
  occurrences := by simp

/-- What a match binds takes precedence over the first occurrence. -/
theorem or_firstValue?_of_bound {m : Match} {x : String} {bound : Value}
    (got : m.get? x = some bound) (value : Value) (y : String) (before : List (Arg × Value)) :
    (m.get? y).or (firstValue? y ((.var x, value) :: before)) =
      (m.get? y).or (firstValue? y before) := by
  rw [firstValue?_var]
  by_cases same : x = y
  · subst y
    simp [got]
  · rw [if_neg same]

/-- Binding a variable and meeting it first come to the same. -/
theorem or_firstValue?_of_unbound {m : Match} {x : String} (got : m.get? x = none)
    (value : Value) (y : String) (before : List (Arg × Value)) :
    (m.get? y).or (firstValue? y ((.var x, value) :: before)) =
      ((m.bind x value).get? y).or (firstValue? y before) := by
  rw [firstValue?_var, get?_bind]
  by_cases same : x = y
  · subst y
    simp [got]
  · rw [if_neg same, if_neg same]

/-- The first pair fits if it agrees with its constant, or with what the match
binds. The others have to fit under a match that says as much as the match and
the first pair together. -/
theorem fits_cons_iff {m n : Match} {pair : Arg × Value}
    (shift : ∀ x before, (m.get? x).or (firstValue? x (pair :: before)) =
      (n.get? x).or (firstValue? x before)) (rest : List (Arg × Value)) :
    m.Fits (pair :: rest) ↔
      ((∀ constant, pair.1 = .val constant → (pair.2 == constant) = true) ∧
        (∀ x, pair.1 = .var x → ∀ first, m.get? x = some first → (pair.2 == first) = true)) ∧
      n.Fits rest := by
  rcases pair with ⟨arg, value⟩
  constructor
  · intro fits
    refine ⟨⟨?_, ?_⟩, ?_, ?_⟩
    · rintro constant rfl
      exact fits.constants constant value List.mem_cons_self
    · rintro x rfl first got
      exact fits.occurrences [] x value rest rfl first (by rw [got]; rfl)
    · intro constant held member
      exact fits.constants constant held (List.mem_cons_of_mem _ member)
    · intro before x held after split first got
      refine fits.occurrences ((arg, value) :: before) x held after ?_ first ?_
      · rw [split, List.cons_append]
      · rw [shift]
        exact got
  · rintro ⟨⟨constantHere, variableHere⟩, fits⟩
    constructor
    · intro constant held member
      rcases List.mem_cons.mp member with here | further
      · obtain ⟨argEq, rfl⟩ := Prod.mk.inj here
        exact constantHere constant argEq.symm
      · exact fits.constants constant held further
    · intro before x held after split first got
      cases before with
      | nil =>
          obtain ⟨here, _⟩ := List.cons.inj split
          obtain ⟨argEq, rfl⟩ := Prod.mk.inj here
          exact variableHere x argEq first (by simpa using got)
      | cons other before =>
          obtain ⟨rfl, splitRest⟩ := List.cons.inj split
          rw [shift] at got
          exact fits.occurrences before x held after splitRest first got

theorem fits_val_iff (m : Match) (constant value : Value) (rest : List (Arg × Value)) :
    m.Fits ((.val constant, value) :: rest) ↔ (value == constant) = true ∧ m.Fits rest := by
  rw [fits_cons_iff fun x before => by rw [firstValue?_val]]
  simp

theorem fits_var_of_bound_iff {m : Match} {x : String} {bound : Value}
    (got : m.get? x = some bound) (value : Value) (rest : List (Arg × Value)) :
    m.Fits ((.var x, value) :: rest) ↔ (value == bound) = true ∧ m.Fits rest := by
  rw [fits_cons_iff (or_firstValue?_of_bound got value)]
  simp [got]

theorem fits_var_of_unbound_iff {m : Match} {x : String} (got : m.get? x = none) (value : Value)
    (rest : List (Arg × Value)) :
    m.Fits ((.var x, value) :: rest) ↔ (m.bind x value).Fits rest := by
  rw [fits_cons_iff (or_firstValue?_of_unbound got value)]
  simp [got]

/-- Fitting from left to right succeeds exactly on pairs that fit. -/
theorem exists_fit?_iff (m : Match) (pairs : List (Arg × Value)) :
    (∃ n, m.fit? pairs = some n) ↔ m.Fits pairs := by
  induction pairs generalizing m with
  | nil => simp [fits_nil]
  | cons pair rest ih =>
      rcases pair with ⟨arg, value⟩
      cases arg with
      | val constant =>
          simp only [fit?_val, Option.ite_none_right_eq_some, exists_and_left, ih, fits_val_iff]
      | var x =>
          cases got : m.get? x with
          | some bound =>
              simp only [fit?_var_of_bound got, Option.ite_none_right_eq_some, exists_and_left, ih,
                fits_var_of_bound_iff got]
          | none => simp only [fit?_var_of_unbound got, ih, fits_var_of_unbound_iff got]

/-- Fitting adds to the match the first value of every variable, and nothing else. -/
theorem get?_of_fit?_eq_some {m n : Match} {pairs : List (Arg × Value)}
    (fitted : m.fit? pairs = some n) (y : String) :
    n.get? y = (m.get? y).or (firstValue? y pairs) := by
  induction pairs generalizing m with
  | nil =>
      obtain rfl : m = n := Option.some.inj fitted
      simp
  | cons pair rest ih =>
      rcases pair with ⟨arg, value⟩
      cases arg with
      | val constant =>
          rw [fit?_val, Option.ite_none_right_eq_some] at fitted
          rw [ih fitted.2, firstValue?_val]
      | var x =>
          cases got : m.get? x with
          | some bound =>
              rw [fit?_var_of_bound got, Option.ite_none_right_eq_some] at fitted
              rw [ih fitted.2, or_firstValue?_of_bound got]
          | none =>
              rw [fit?_var_of_unbound got] at fitted
              rw [ih fitted, or_firstValue?_of_unbound got]

/-- The empty match can be extended exactly by tuples that satisfy the patterns. -/
theorem exists_fit?_empty_iff {patterns : List Claim} {tuples : List Tuple}
    (arity : List.Forall₂ (fun pattern tuple => tuple.length = pattern.args.length)
      patterns tuples) :
    (∃ n, (∅ : Match).fit? (pairings patterns tuples) = some n) ↔ Satisfies patterns tuples := by
  rw [exists_fit?_iff]
  constructor
  · intro fits
    exact ⟨arity, fits.constants, by simpa using fits.occurrences⟩
  · intro satisfies
    exact ⟨satisfies.constants, by simpa using satisfies.occurrences⟩

end Match

end Blackboard
