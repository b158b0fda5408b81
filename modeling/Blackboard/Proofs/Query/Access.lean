import Blackboard.Database
import Blackboard.Proofs.Query.Plan

/-!
# Queries stay within their tuples

A plan looks at positions of a tuple, and a tuple need not have them: tuples of any length
share a name and a place in the index. Here every look-up is checked, and one that goes amiss
is a `Breach`. On any store the checked query has none, since candidates of another length
than the pattern are put aside before anything is looked up (`Store.checkedJoinAll_eq`).
-/

namespace Blackboard

/-- What can go amiss in a tick. -/
inductive Breach where
  /-- A tuple has no such position. -/
  | position
  /-- A template is refused. -/
  | template
  /-- A capture rule has no pattern. -/
  | pattern
  /-- There is no cell for a rule. -/
  | cell
  /-- Fewer captures are recorded than a rule was handed. -/
  | captures
  /-- The world has fewer claims than before a call. -/
  | claims
deriving DecidableEq, Repr

namespace Breach

/-- What was found, or else a breach. -/
def check {α : Type} (breach : Breach) : Option α → Except Breach α
  | some found => .ok found
  | none => .error breach

@[simp]
theorem check_some {α : Type} (breach : Breach) (found : α) :
    breach.check (some found) = .ok found := rfl

@[simp]
theorem ok_bind {α β : Type} (found : α) (next : α → Except Breach β) :
    (Except.ok found : Except Breach α) >>= next = next found := rfl

/-- Items none of which causes a breach are all dealt with. -/
theorem mapM_eq_ok {α β : Type} {f : α → Except Breach β} {g : α → β} {items : List α}
    (fine : ∀ item ∈ items, f item = .ok (g item)) : items.mapM f = .ok (items.map g) := by
  induction items with
  | nil => rfl
  | cons item items ih =>
      obtain ⟨here, further⟩ := List.forall_mem_cons.mp fine
      rw [List.mapM_cons, here, ih further]
      rfl

end Breach

namespace Plan

/-! ## Positions of a plan -/

/-- A plan looks only at positions below a bound. -/
structure Below (plan : Plan) (bound : Nat) : Prop where
  constants : ∀ constant ∈ plan.constants, constant.1 < bound
  free : ∀ place ∈ plan.free, place.1 < bound
  equal : ∀ pair ∈ plan.equal, pair.1 < bound ∧ pair.2 < bound

/-- The plan for the arguments from a position on looks at their positions, and at those of
the variables seen before. -/
theorem below_build (context : Match) (args : List Arg) (seen : List (Nat × String))
    (position : Nat) (seenBelow : ∀ earlier ∈ seen, earlier.1 < position) :
    (build context seen position args).Below (position + args.length) := by
  induction args generalizing seen position with
  | nil => exact ⟨nofun, nofun, nofun⟩
  | cons arg args ih =>
      rw [List.length_cons, Nat.add_comm args.length 1, ← Nat.add_assoc]
      have here : position < position + 1 + args.length := by omega
      have seenBefore : ∀ earlier ∈ seen, earlier.1 < position + 1 := fun earlier member =>
        Nat.lt_succ_of_lt (seenBelow earlier member)
      have rest := ih seen (position + 1) seenBefore
      cases arg with
      | val value =>
          rw [build_val]
          exact { rest with constants := List.forall_mem_cons.mpr ⟨here, rest.constants⟩ }
      | var x =>
          cases bound : context.get? x with
          | some value =>
              rw [build_bound bound]
              exact { rest with constants := List.forall_mem_cons.mpr ⟨here, rest.constants⟩ }
          | none =>
              cases found : seen.find? (fun earlier => earlier.2 == x) with
              | some earlier =>
                  rcases earlier with ⟨first, name⟩
                  have firstBelow := seenBelow _ (List.mem_of_find?_eq_some found)
                  rw [build_seen bound found]
                  exact { rest with
                    equal := List.forall_mem_cons.mpr ⟨⟨firstBelow.trans here, here⟩, rest.equal⟩ }
              | none =>
                  have rest := ih (seen ++ [(position, x)]) (position + 1) <|
                    List.forall_mem_append.mpr ⟨seenBefore, by simp⟩
                  rw [build_new bound found]
                  exact { rest with free := List.forall_mem_cons.mpr ⟨here, rest.free⟩ }

theorem below_ofArgs (args : List Arg) (context : Match) :
    (ofArgs args context).Below args.length := by
  rw [ofArgs, ← Nat.zero_add args.length]
  exact below_build context args [] 0 nofun

/-! ## Looking at a tuple -/

section Tuple

variable {tuple : Tuple}

theorem holds?_isSome {constants : List (Nat × Value)}
    (inside : ∀ constant ∈ constants, constant.1 < tuple.length) :
    (holds? tuple constants).isSome = true := by
  induction constants with
  | nil => rfl
  | cons constant constants ih =>
      obtain ⟨here, further⟩ := List.forall_mem_cons.mp inside
      simp only [holds?, List.getElem?_eq_getElem here, Option.bind_eq_bind, Option.bind_some]
      split
      · exact ih further
      · rfl

theorem holdsEqual?_isSome {pairs : List (Nat × Nat)}
    (inside : ∀ pair ∈ pairs, pair.1 < tuple.length ∧ pair.2 < tuple.length) :
    (holdsEqual? tuple pairs).isSome = true := by
  induction pairs with
  | nil => rfl
  | cons pair pairs ih =>
      obtain ⟨here, further⟩ := List.forall_mem_cons.mp inside
      simp only [holdsEqual?, List.getElem?_eq_getElem here.1, List.getElem?_eq_getElem here.2,
        Option.bind_eq_bind, Option.bind_some]
      split
      · exact ih further
      · rfl

theorem project?_isSome {places : List (Nat × String)}
    (inside : ∀ place ∈ places, place.1 < tuple.length) (context : Match) :
    (project? tuple context places).isSome = true := by
  induction places generalizing context with
  | nil => rfl
  | cons place places ih =>
      obtain ⟨here, further⟩ := List.forall_mem_cons.mp inside
      simp only [project?, List.getElem?_eq_getElem here, Option.bind_eq_bind, Option.bind_some]
      exact ih further _

/-- On a tuple that is long enough for a plan no look-up goes amiss. -/
theorem extend?_isSome {plan : Plan} (below : plan.Below tuple.length)
    {filters : List (Nat × Value)} (filtered : filters ⊆ plan.constants) (context : Match) :
    (plan.extend? filters context tuple).isSome = true := by
  obtain ⟨holds, holdsEq⟩ := Option.isSome_iff_exists.mp <|
    holds?_isSome fun constant member => below.constants constant (filtered member)
  obtain ⟨equal, equalEq⟩ := Option.isSome_iff_exists.mp (holdsEqual?_isSome below.equal)
  obtain ⟨extended, extendedEq⟩ :=
    Option.isSome_iff_exists.mp (project?_isSome below.free context)
  rw [extend?, holdsEq, equalEq, extendedEq]
  cases holds <;> cases equal <;> rfl

/-- A shorter tuple is looked beyond. -/
example : (ofArgs [.var "x", .var "y"] ∅).extend? [] ∅ [.int 1] = none := by rfl

end Tuple

end Plan

namespace Store

/-! ## Checked queries -/

/-- Extends a match in every way in which one pattern allows it, with look-ups checked. -/
def checkedExtensions (store : Store) (pattern : Claim) (context : Match) :
    Except Breach (List Match) := do
  let plan := Plan.ofArgs pattern.args context
  let (tuples, filters) := store.candidates pattern.name plan
  let fitting := tuples.toList.filter fun tuple => tuple.length = pattern.args.length
  let extended ← fitting.mapM fun tuple =>
    Breach.position.check (plan.extend? filters context tuple)
  return extended.filterMap id

/-- Extends each of the given matches by one pattern, with look-ups checked. -/
def checkedJoin (store : Store) (pattern : Claim) (contexts : List Match) :
    Except Breach Answer := do
  let results ← contexts.mapM fun context =>
    (store.checkedExtensions pattern context).map fun extended => (context, extended)
  let failing := results.filter fun result => result.2.isEmpty
  return { found := results.flatMap fun result => result.2
           misses := failing.map fun result => (pattern, result.1) }

/-- Joins patterns to the given matches, with look-ups checked. -/
def checkedJoinAll (store : Store) : List Claim → List Match → Except Breach Answer
  | [], contexts => return { found := contexts }
  | pattern :: rest, contexts => do
    let here ← store.checkedJoin pattern contexts
    if here.found.isEmpty then
      return here
    else
      let further ← store.checkedJoinAll rest here.found
      return { further with misses := here.misses ++ further.misses }

/-- The answer to a conjunction of patterns, with look-ups checked. -/
def checkedAnswer (store : Store) (patterns : List Claim) : Except Breach Answer :=
  store.checkedJoinAll patterns [∅]

/-- What is still to be checked of candidates are constants of the plan. -/
theorem candidates_subset (store : Store) (name : String) (plan : Plan) :
    (store.candidates name plan).2 ⊆ plan.constants := by
  unfold candidates
  split
  · exact List.nil_subset _
  · next constants =>
      split
      · rw [constants]
        exact List.subset_cons_self ..
      · exact List.Subset.refl _

theorem checkedExtensions_eq (store : Store) (pattern : Claim) (context : Match) :
    store.checkedExtensions pattern context = .ok (store.extensions pattern context) := by
  unfold checkedExtensions extensions
  dsimp only
  have filtered := store.candidates_subset pattern.name (Plan.ofArgs pattern.args context)
  generalize store.candidates pattern.name (Plan.ofArgs pattern.args context) = candidates
    at filtered ⊢
  rcases candidates with ⟨tuples, filters⟩
  dsimp only
  have fine : ∀ tuple ∈ tuples.toList.filter fun tuple => tuple.length = pattern.args.length,
      Breach.position.check
          ((Plan.ofArgs pattern.args context).extend? filters context tuple) =
        .ok ((Plan.ofArgs pattern.args context).extend? filters context tuple).join := by
    intro tuple member
    have arity : tuple.length = pattern.args.length := by
      simpa using (List.mem_filter.mp member).2
    have below := arity ▸ Plan.below_ofArgs pattern.args context
    obtain ⟨extended, extendedEq⟩ :=
      Option.isSome_iff_exists.mp (Plan.extend?_isSome below filtered context)
    rw [extendedEq]
    rfl
  rw [Breach.mapM_eq_ok fine]
  change Except.ok _ = _
  simp only [List.filterMap_map, List.filterMap_filter, Function.comp_def, id, decide_eq_true_eq]

theorem checkedJoin_eq (store : Store) (pattern : Claim) (contexts : List Match) :
    store.checkedJoin pattern contexts = .ok (store.join pattern contexts) := by
  unfold checkedJoin
  rw [Breach.mapM_eq_ok fun context _ => by rw [checkedExtensions_eq]; rfl]
  rfl

/-- On any store, whatever it holds, patterns of any length are joined without a breach. -/
theorem checkedJoinAll_eq (store : Store) (patterns : List Claim) (contexts : List Match) :
    store.checkedJoinAll patterns contexts = .ok (store.joinAll patterns contexts) := by
  induction patterns generalizing contexts with
  | nil => rfl
  | cons pattern patterns ih =>
      rw [checkedJoinAll, joinAll, checkedJoin_eq, Breach.ok_bind, ih, Breach.ok_bind]
      split <;> rfl

theorem checkedAnswer_eq (store : Store) (patterns : List Claim) :
    store.checkedAnswer patterns = .ok (store.answer patterns) :=
  store.checkedJoinAll_eq patterns [∅]

end Store

namespace Database

/-- A query with look-ups checked. -/
def checkedQuery (db : Database) (patterns : List Claim) :
    Except Breach (List Match × Database) := do
  let answer ← db.store.checkedAnswer patterns
  return (answer.found, { db with captures := db.captures.missAll answer.misses })

theorem checkedQuery_eq (db : Database) (patterns : List Claim) :
    db.checkedQuery patterns = .ok (db.query patterns) := by
  unfold checkedQuery
  rw [Store.checkedAnswer_eq]
  rfl

end Database

end Blackboard
