import Blackboard.Proofs.Query.Meaning
import Blackboard.Proofs.Store.Index

/-!
# Plans answer as a scan would

A plan takes the arguments of a pattern apart: constants, repeated variables and
new variables are looked at one after the other, and the index answers for the
first constant. `extend?_ofArgs` puts them together again: on a tuple of the
right length a plan does what fitting the arguments from left to right does. On
an indexed store the probe selects no tuple too few and its filter may be
dropped (`Indexed.extensions_eq`).
-/

namespace Blackboard

namespace Plan

/-! ## Taking arguments apart -/

/-- What a match binds while the arguments of a pattern are fitted to a tuple:
what the context binds, and the value of each new variable at its position. -/
def Tracks (tuple : Tuple) (context : Match) (seen : List (Nat × String)) (m : Match) : Prop :=
  (∀ earlier ∈ seen, earlier.1 < tuple.length) ∧
    ∀ x, m.get? x = (context.get? x).or
      ((seen.find? fun earlier => earlier.2 == x).bind fun earlier => tuple[earlier.1]?)

theorem tracks_nil (tuple : Tuple) (context : Match) : Tracks tuple context [] context :=
  ⟨by simp, by simp⟩

theorem Tracks.bind {tuple : Tuple} {context : Match} {seen : List (Nat × String)} {m : Match}
    (tracks : Tracks tuple context seen m) {position : Nat} {x : String} {value : Value}
    (held : tuple[position]? = some value) (unbound : context.get? x = none)
    (unseen : seen.find? (fun earlier => earlier.2 == x) = none) :
    Tracks tuple context (seen ++ [(position, x)]) (m.bind x value) := by
  constructor
  · intro earlier member
    rcases List.mem_append.mp member with before | here
    · exact tracks.1 earlier before
    · obtain rfl := List.mem_singleton.mp here
      exact (List.getElem?_eq_some_iff.mp held).1
  · intro y
    rw [Match.get?_bind, List.find?_append, tracks.2 y]
    by_cases same : x = y
    · subst y
      simp [unbound, unseen, held]
    · simp [same]

theorem build_val (context : Match) (seen : List (Nat × String)) (position : Nat) (value : Value)
    (args : List Arg) :
    build context seen position (.val value :: args) =
      { build context seen (position + 1) args with
        constants := (position, value) :: (build context seen (position + 1) args).constants } :=
  rfl

theorem build_bound {context : Match} {x : String} {value : Value}
    (bound : context.get? x = some value) (seen : List (Nat × String)) (position : Nat)
    (args : List Arg) :
    build context seen position (.var x :: args) =
      { build context seen (position + 1) args with
        constants := (position, value) :: (build context seen (position + 1) args).constants } := by
  rw [build, bound]

theorem build_seen {context : Match} {x name : String} {seen : List (Nat × String)} {first : Nat}
    (unbound : context.get? x = none)
    (found : seen.find? (fun earlier => earlier.2 == x) = some (first, name)) (position : Nat)
    (args : List Arg) :
    build context seen position (.var x :: args) =
      { build context seen (position + 1) args with
        equal := (first, position) :: (build context seen (position + 1) args).equal } := by
  rw [build, unbound, found]

theorem build_new {context : Match} {x : String} {seen : List (Nat × String)}
    (unbound : context.get? x = none)
    (unseen : seen.find? (fun earlier => earlier.2 == x) = none) (position : Nat)
    (args : List Arg) :
    build context seen position (.var x :: args) =
      { build context (seen ++ [(position, x)]) (position + 1) args with
        free := (position, x) ::
          (build context (seen ++ [(position, x)]) (position + 1) args).free } := by
  rw [build, unbound, unseen]

/-! ## Putting them together -/

/-- How the parts of a plan answer for a tuple: the constants, the repeated
variables, and the match with the new variables bound. -/
structure Verdict (plan : Plan) (tuple : Tuple) (m : Match) where
  constants : Bool
  repeated : Bool
  extended : Match
  constants_eq : holds? tuple plan.constants = some constants
  repeated_eq : holdsEqual? tuple plan.equal = some repeated
  extended_eq : project? tuple m plan.free = some extended

namespace Verdict

variable {plan : Plan} {tuple : Tuple} {m : Match}

/-- What the parts of a plan come to together. -/
def result (verdict : Verdict plan tuple m) : Option Match :=
  if verdict.constants && verdict.repeated then some verdict.extended else none

/-- The verdict on a plan with one more constant in front. -/
def consConstant (verdict : Verdict plan tuple m) {position : Nat} {held : Value}
    (here : tuple[position]? = some held) (value : Value) :
    Verdict { plan with constants := (position, value) :: plan.constants } tuple m where
  constants := held == value && verdict.constants
  repeated := verdict.repeated
  extended := verdict.extended
  constants_eq := by
    cases equal : held == value <;> simp [holds?, here, equal, verdict.constants_eq]
  repeated_eq := verdict.repeated_eq
  extended_eq := verdict.extended_eq

theorem result_consConstant (verdict : Verdict plan tuple m) {position : Nat} {held : Value}
    (here : tuple[position]? = some held) (value : Value) :
    (verdict.consConstant here value).result = if held == value then verdict.result else none := by
  cases equal : held == value <;> simp [result, consConstant, equal]

/-- The verdict on a plan with one more repeated variable in front. -/
def consEqual (verdict : Verdict plan tuple m) {first position : Nat} {bound held : Value}
    (earlier : tuple[first]? = some bound) (here : tuple[position]? = some held) :
    Verdict { plan with equal := (first, position) :: plan.equal } tuple m where
  constants := verdict.constants
  repeated := bound == held && verdict.repeated
  extended := verdict.extended
  constants_eq := verdict.constants_eq
  repeated_eq := by
    cases equal : bound == held <;> simp [holdsEqual?, earlier, here, equal, verdict.repeated_eq]
  extended_eq := verdict.extended_eq

theorem result_consEqual (verdict : Verdict plan tuple m) {first position : Nat}
    {bound held : Value} (earlier : tuple[first]? = some bound)
    (here : tuple[position]? = some held) :
    (verdict.consEqual earlier here).result = if held == bound then verdict.result else none := by
  rw [Value.beq_comm held bound]
  cases equal : bound == held <;> simp [result, consEqual, equal]

/-- The verdict on a plan with one more new variable in front. -/
def consFree {x : String} {held : Value} (verdict : Verdict plan tuple (m.bind x held))
    {position : Nat} (here : tuple[position]? = some held) :
    Verdict { plan with free := (position, x) :: plan.free } tuple m where
  constants := verdict.constants
  repeated := verdict.repeated
  extended := verdict.extended
  constants_eq := verdict.constants_eq
  repeated_eq := verdict.repeated_eq
  extended_eq := by simp [project?, here, verdict.extended_eq]

end Verdict

/-- The plan for the arguments from a position on and the values from there on
come to what fitting the values to the arguments comes to. -/
theorem exists_verdict (tuple : Tuple) (context : Match) (args : List Arg)
    (seen : List (Nat × String)) (position : Nat) (m : Match)
    (tracks : Tracks tuple context seen m) (arity : tuple.length = position + args.length) :
    ∃ verdict : Verdict (build context seen position args) tuple m,
      verdict.result = m.fit? (args.zip (tuple.drop position)) := by
  induction args generalizing seen position m with
  | nil => exact ⟨⟨true, true, m, rfl, rfl, rfl⟩, rfl⟩
  | cons arg args ih =>
      rw [List.length_cons] at arity
      have inside : position < tuple.length := by omega
      have here : tuple[position]? = some tuple[position] := List.getElem?_eq_getElem inside
      have arityRest : tuple.length = position + 1 + args.length := by omega
      rw [List.drop_eq_getElem_cons inside, List.zip_cons_cons]
      generalize tuple[position] = held at here ⊢
      cases arg with
      | val value =>
          obtain ⟨verdict, verdictEq⟩ := ih seen (position + 1) m tracks arityRest
          rw [build_val, Match.fit?_val, ← verdictEq, ← verdict.result_consConstant here]
          exact ⟨_, rfl⟩
      | var x =>
          cases bound : context.get? x with
          | some value =>
              obtain ⟨verdict, verdictEq⟩ := ih seen (position + 1) m tracks arityRest
              have got : m.get? x = some value := by simp [tracks.2 x, bound]
              rw [build_bound bound, Match.fit?_var_of_bound got, ← verdictEq,
                ← verdict.result_consConstant here]
              exact ⟨_, rfl⟩
          | none =>
              cases found : seen.find? (fun earlier => earlier.2 == x) with
              | some earlier =>
                  rcases earlier with ⟨first, name⟩
                  obtain ⟨verdict, verdictEq⟩ := ih seen (position + 1) m tracks arityRest
                  have firstInside := tracks.1 _ (List.mem_of_find?_eq_some found)
                  have heldFirst := List.getElem?_eq_getElem firstInside
                  have got : m.get? x = some tuple[first] := by
                    simp [tracks.2 x, bound, found, firstInside]
                  rw [build_seen bound found, Match.fit?_var_of_bound got, ← verdictEq,
                    ← verdict.result_consEqual heldFirst here]
                  exact ⟨_, rfl⟩
              | none =>
                  have got : m.get? x = none := by simp [tracks.2 x, bound, found]
                  obtain ⟨verdict, verdictEq⟩ := ih (seen ++ [(position, x)]) (position + 1)
                    (m.bind x held) (tracks.bind here bound found) arityRest
                  rw [build_new bound found, Match.fit?_var_of_unbound got]
                  exact ⟨verdict.consFree here, verdictEq⟩

/-- On a tuple of the right length, a plan that checks all its constants fits the
values to the arguments from left to right. -/
theorem extend?_ofArgs {tuple : Tuple} {args : List Arg} (arity : tuple.length = args.length)
    (context : Match) :
    (ofArgs args context).extend? (ofArgs args context).constants context tuple =
      some (context.fit? (args.zip tuple)) := by
  obtain ⟨verdict, verdictEq⟩ := exists_verdict tuple context args [] 0 context
    (tracks_nil tuple context) (by omega)
  rw [List.drop_zero] at verdictEq
  rw [← verdictEq]
  unfold extend? ofArgs Verdict.result
  rw [verdict.constants_eq, verdict.repeated_eq, verdict.extended_eq]
  cases verdict.constants <;> cases verdict.repeated <;> rfl

/-- A constant that the tuple is known to hold need not be checked. -/
theorem extend?_cons_of_holds {tuple : Tuple} {position : Nat} {value : Value}
    (holds : tuple[position]?.any (· == value) = true) (plan : Plan)
    (filters : List (Nat × Value)) (context : Match) :
    plan.extend? ((position, value) :: filters) context tuple =
      plan.extend? filters context tuple := by
  obtain ⟨held, here, equal⟩ := (Option.any_eq_true _ _).mp holds
  simp [extend?, holds?, here, equal]

/-- A constant that the tuple does not hold rules it out. -/
theorem extend?_cons_of_not_holds {tuple : Tuple} {position : Nat} {value : Value}
    (missing : tuple[position]?.any (· == value) = false) (plan : Plan)
    (filters : List (Nat × Value)) (context : Match) :
    (plan.extend? ((position, value) :: filters) context tuple).join = none := by
  cases here : tuple[position]? with
  | none => simp [extend?, holds?, here]
  | some held =>
      have different : (held == value) = false := by simpa [here] using missing
      simp [extend?, holds?, here, different]

end Plan

/-! ## One pattern on a store -/

namespace Claim

/-- Extends a match by one tuple, if the tuple fits the pattern. -/
def fit? (pattern : Claim) (context : Match) (tuple : Tuple) : Option Match :=
  if tuple.length = pattern.args.length then context.fit? (pattern.args.zip tuple) else none

theorem fit?_eq_some_iff (pattern : Claim) (m n : Match) (tuple : Tuple) :
    pattern.fit? m tuple = some n ↔
      tuple.length = pattern.args.length ∧ m.fit? (pattern.args.zip tuple) = some n :=
  Option.ite_none_right_eq_some

end Claim

namespace Store

theorem candidates_of_nil {plan : Plan} (constants : plan.constants = []) (store : Store)
    (name : String) : store.candidates name plan = (store.tuples name, []) := by
  rw [candidates, constants]

theorem candidates_of_keyed {plan : Plan} {position : Nat} {value : Value}
    {rest : List (Nat × Value)} (constants : plan.constants = (position, value) :: rest)
    (keyed : value.indexKey?.isSome = true) (store : Store) (name : String) :
    store.candidates name plan = (store.tuplesAt name position value, rest) := by
  rw [candidates, constants]
  exact if_pos keyed

theorem candidates_of_unkeyed {plan : Plan} {position : Nat} {value : Value}
    {rest : List (Nat × Value)} (constants : plan.constants = (position, value) :: rest)
    (unkeyed : value.indexKey?.isSome = false) (store : Store) (name : String) :
    store.candidates name plan = (store.tuples name, plan.constants) := by
  rw [candidates, constants]
  exact if_neg (by simp [unkeyed])

/-- With an index or without, a pattern is extended by every stored tuple of its
name that fits, in order. -/
theorem Indexed.extensions_eq {store : Store} (indexed : store.Indexed) (pattern : Claim)
    (context : Match) :
    store.extensions pattern context =
      (store.tuples pattern.name).toList.filterMap (pattern.fit? context) := by
  have scan : ∀ tuple, pattern.fit? context tuple = if tuple.length = pattern.args.length then
      ((Plan.ofArgs pattern.args context).extend? (Plan.ofArgs pattern.args context).constants
        context tuple).join else none := by
    intro tuple
    unfold Claim.fit?
    by_cases arity : tuple.length = pattern.args.length
    · rw [if_pos arity, if_pos arity, Plan.extend?_ofArgs arity]
      rfl
    · rw [if_neg arity, if_neg arity]
  rw [funext scan]
  unfold extensions
  generalize Plan.ofArgs pattern.args context = plan
  cases constants : plan.constants with
  | nil => simp only [candidates_of_nil constants]
  | cons constant rest =>
      rcases constant with ⟨position, value⟩
      cases keyed : value.indexKey?.isSome with
      | false => simp only [candidates_of_unkeyed constants keyed, constants]
      | true =>
          simp only [candidates_of_keyed constants keyed, indexed.tuplesAt keyed,
            List.filterMap_filter]
          apply List.filterMap_congr
          intro tuple _
          by_cases holds : tuple[position]?.any (· == value) = true
          · rw [if_pos holds, Plan.extend?_cons_of_holds holds]
          · rw [if_neg holds, Plan.extend?_cons_of_not_holds (by simpa using holds), ite_self]

end Store

end Blackboard
