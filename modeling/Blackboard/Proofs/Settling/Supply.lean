import Blackboard.Proofs.Rule.Delivery
import Blackboard.Proofs.Settling.Recording

/-!
# What an iteration supplies

A capture rule is called with the captures of its name that it has not been handed
yet. If it has been handed all those before an iteration (`Progress.Fed`), these are
the ones that the iteration records (`Settling.iterate_fed`).

Rules are told apart by their position in the list of rules, as the loop does.
-/

namespace Blackboard

namespace Captures

theorem since?_eq_drop {captures : Captures} {name : String} {index : Nat}
    (inside : index ≤ (captures.under name).toList.length) :
    captures.since? name index = some ((captures.under name).toList.drop index) := by
  unfold since?
  rw [Array.length_toList] at inside
  rw [if_pos inside, Array.toList_extract, List.extract_eq_take_drop, List.take_of_length_le]
  simp

/-- Beyond the end there are no captures. -/
theorem since?_getD (captures : Captures) (name : String) (index : Nat) :
    (captures.since? name index).getD [] = (captures.under name).toList.drop index := by
  by_cases inside : index ≤ (captures.under name).toList.length
  · rw [since?_eq_drop inside, Option.getD_some]
  · rw [since?, if_neg (by rwa [Array.length_toList] at inside), Option.getD_none,
      List.drop_eq_nil_of_le (Nat.le_of_not_le inside)]

end Captures

namespace Progress

/-! ## One iteration -/

theorem pending_of_retired {progress : Progress} (retired : progress.retired = true)
    (db : Database) : progress.pending db = [] := by
  simp [pending, retired]

theorem pending_of_waiting {progress : Progress} {pattern : Claim}
    {callback : Context → Match → Reaction}
    (body : progress.rule.body = .capture pattern callback)
    (waiting : progress.retired = false) (db : Database) :
    progress.pending db = (db.captures.under pattern.name).toList.drop progress.cursor := by
  simp [pending, waiting, Rule.kind, Rule.patterns, body, RuleBody.kind, RuleBody.patterns,
    Captures.since?_getD]

/-- A capture rule that waits has either been handed all that is recorded, or what is pending
takes it there. -/
theorem pending_cases {progress : Progress} {pattern : Claim}
    {callback : Context → Match → Reaction}
    (body : progress.rule.body = .capture pattern callback)
    (waiting : progress.retired = false) (db : Database) :
    ((db.captures.under pattern.name).size ≤ progress.cursor ∧ progress.pending db = []) ∨
      (progress.cursor < (db.captures.under pattern.name).size ∧ progress.pending db ≠ [] ∧
        db.captures.since? pattern.name progress.cursor = some (progress.pending db) ∧
        progress.cursor + (progress.pending db).length =
          (db.captures.under pattern.name).size) := by
  have pending := pending_of_waiting body waiting db
  rcases Nat.lt_or_ge progress.cursor (db.captures.under pattern.name).size with behind | done
  · have inside : progress.cursor < (db.captures.under pattern.name).toList.length := behind
    refine .inr ⟨behind, ?_, ?_, ?_⟩
    · rw [pending, ne_eq, List.drop_eq_nil_iff]
      exact Nat.not_le_of_lt inside
    · rw [pending, Captures.since?_eq_drop (Nat.le_of_lt inside)]
    · rw [pending, List.length_drop, Nat.add_sub_of_le (Nat.le_of_lt inside),
        Array.length_toList]
  · exact .inl ⟨done, pending.trans (List.drop_eq_nil_of_le done)⟩

/-- A capture rule has been handed the captures of its name so far, up to the first
for which its callback fails. -/
structure Fed (tick : Nat) (callback : Context → Match → Reaction) (captured : List Match)
    (progress : Progress) : Prop where
  retired : progress.retired =
    (progress.rule.deliverEach tick callback 0 captured).failure.isSome
  counted : progress.retired = false →
    progress.cursor = captured.length ∧ progress.fired = captured.length

namespace Fed

variable {tick : Nat} {pattern : Claim} {callback : Context → Match → Reaction}
  {captured recorded : List Match} {progress : Progress} {db : Database}

/-- What is pending is what was recorded since. -/
theorem pending (fed : progress.Fed tick callback captured)
    (body : progress.rule.body = .capture pattern callback)
    (held : (db.captures.under pattern.name).toList = captured ++ recorded) :
    progress.pending db = if progress.retired = true then [] else recorded := by
  cases retired : progress.retired with
  | true => exact pending_of_retired retired db
  | false =>
      rw [pending_of_waiting body retired, held, (fed.counted retired).1, List.drop_left]
      rfl

/-- A rule that has failed stays as it is. -/
theorem append_of_retired (fed : progress.Fed tick callback captured)
    (retired : progress.retired = true) (recorded : List Match) :
    progress.Fed tick callback (captured ++ recorded) where
  retired := by
    have failed := fed.retired.symm.trans retired
    rw [(progress.rule.deliverEach_append tick callback 0 captured recorded).2, retired,
      Option.isSome_or, failed, Bool.true_or]
  counted waiting := by
    rw [retired] at waiting
    cases waiting

/-- A rule that is handed what was recorded since advances past it. -/
theorem advance (fed : progress.Fed tick callback captured)
    (body : progress.rule.body = .capture pattern callback) (waiting : progress.retired = false)
    (iteration : Nat) (recorded : List Match) :
    (progress.advance (progress.rule.invoke tick iteration progress.cursor recorded)
      recorded).Fed tick callback (captured ++ recorded) where
  retired := by
    obtain ⟨cursor, _⟩ := fed.counted waiting
    have succeeded := fed.retired.symm.trans waiting
    rw [Option.isSome_eq_false_iff, Option.isNone_iff_eq_none] at succeeded
    change (progress.rule.invoke tick iteration progress.cursor recorded).failure.isSome =
      (progress.rule.deliverEach tick callback 0 (captured ++ recorded)).failure.isSome
    rw [(progress.rule.deliverEach_append tick callback 0 captured recorded).2, succeeded,
      Option.none_or, Nat.zero_add, cursor]
    simp only [Rule.invoke, Rule.deliver, body]
  counted _ := by
    obtain ⟨cursor, fired⟩ := fed.counted waiting
    rw [List.length_append]
    exact ⟨congrArg (· + recorded.length) cursor, congrArg (· + recorded.length) fired⟩

/-- A capture rule that has not failed is handed what was recorded since. -/
theorem supply (fed : progress.Fed tick callback captured)
    (body : progress.rule.body = .capture pattern callback)
    (held : (db.captures.under pattern.name).toList = captured ++ recorded) (iteration : Nat) :
    (progress.supply tick iteration db).2.2.1 =
        (if progress.retired = true ∨ recorded = [] then
          []
        else
          [progress.rule.invoke tick iteration captured.length recorded]) ∧
      (progress.supply tick iteration db).1.Fed tick callback (captured ++ recorded) := by
  have found := fed.pending body held
  cases retired : progress.retired with
  | true =>
      rw [retired, if_pos rfl] at found
      rcases supply_cases tick iteration progress db with ⟨_, result⟩ | ⟨_, _, some, _⟩
      · rw [result, if_pos (.inl rfl)]
        exact ⟨rfl, fed.append_of_retired retired recorded⟩
      · exact absurd found some
  | false =>
      rw [retired, if_neg Bool.false_ne_true] at found
      rcases supply_cases tick iteration progress db with
        ⟨none, result⟩ | ⟨_, _, some, made, result⟩
      · obtain rfl : recorded = [] := found.symm.trans none
        rw [result, if_pos (.inr rfl), List.append_nil]
        exact ⟨rfl, fed⟩
      · rw [found] at some made result
        rw [result, if_neg (by simp [some]), made, ← (fed.counted retired).1]
        exact ⟨rfl, fed.advance body retired iteration recorded⟩

end Fed

end Progress

namespace Settling

/-! ## The call at a position -/

/-- The calls that supplying makes for the rule at a position. -/
def suppliedAt (tick iteration : Nat) (progress : List Progress) (db : Database) (i : Nat) :
    List Invocation :=
  match progress[i]? with
  | some here =>
    (here.supply tick iteration
      (supplyAll tick iteration (progress.take i) db).database).2.2.1
  | none => []

theorem suppliedAt_succ (tick iteration : Nat) (here : Progress) (rest : List Progress)
    (db : Database) (i : Nat) :
    suppliedAt tick iteration (here :: rest) db (i + 1) =
      suppliedAt tick iteration rest (here.supply tick iteration db).2.1 i := by
  simp [suppliedAt, supplyAll_cons]

/-- Position by position, these are all calls. -/
theorem supplyAll_trace (tick iteration : Nat) (progress : List Progress) (db : Database) :
    (supplyAll tick iteration progress db).trace =
      (List.range progress.length).flatMap (suppliedAt tick iteration progress db) := by
  induction progress generalizing db with
  | nil => rfl
  | cons here rest ih =>
      rw [supplyAll_cons, List.length_cons, List.range_succ_eq_map, List.flatMap_cons,
        List.flatMap_map]
      simp only [Nat.succ_eq_add_one, suppliedAt_succ, ih]
      rfl

theorem supplyAll_getElem? (tick iteration : Nat) (progress : List Progress) (db : Database)
    (i : Nat) :
    (supplyAll tick iteration progress db).progress[i]? =
      progress[i]?.map fun here => (here.supply tick iteration
        (supplyAll tick iteration (progress.take i) db).database).1 := by
  induction progress generalizing db i with
  | nil => rfl
  | cons here rest ih =>
      cases i with
      | zero => rfl
      | succ i =>
          rw [supplyAll_cons, List.take_succ_cons, supplyAll_cons]
          exact ih _ i

/-- Capture rules do not query. -/
theorem queryAll_getElem?_of_capture {progress : List Progress} {i : Nat} {here : Progress}
    (placed : progress[i]? = some here) (capture : here.rule.kind = .capture)
    (tick iteration : Nat) (db : Database) :
    (queryAll tick iteration progress db).progress[i]? = some here := by
  induction progress generalizing db i with
  | nil => cases placed
  | cons first rest ih =>
      rw [queryAll_cons]
      cases i with
      | zero =>
          obtain rfl : first = here := Option.some.inj placed
          rcases first.query_cases tick iteration db with ⟨_, result⟩ | ⟨waiting, _⟩ | ⟨waiting, _⟩
          · rw [result]
            rfl
          · exact absurd capture waiting.2
          · exact absurd capture waiting.2
      | succ i => exact ih placed _

/-- The calls that the next iteration makes for the capture rule at a position. -/
def callsAt (tick : Nat) (s : Settling) (i : Nat) : List Invocation :=
  let queried := queryAll tick (s.iterations + 1) s.progress s.database
  suppliedAt tick (s.iterations + 1) queried.progress queried.database i

/-- An iteration supplies a capture rule when all captures of the iteration have
been recorded. -/
theorem iterate_capture {s : Settling} {i : Nat} {here : Progress}
    (placed : s.progress[i]? = some here) (capture : here.rule.kind = .capture) (tick : Nat) :
    ∃ db : Database, db.captures = (s.iterate tick).database.captures ∧
      (s.iterate tick).progress[i]? = some (here.supply tick (s.iterations + 1) db).1 ∧
      s.callsAt tick i = (here.supply tick (s.iterations + 1) db).2.2.1 := by
  let queried := queryAll tick (s.iterations + 1) s.progress s.database
  have stillPlaced : queried.progress[i]? = some here :=
    queryAll_getElem?_of_capture placed capture tick _ s.database
  refine ⟨(supplyAll tick (s.iterations + 1) (queried.progress.take i) queried.database).database,
    ?_, ?_, ?_⟩
  · exact (supplyAll_captures ..).trans (iterate_captures tick s).symm
  · apply (supplyAll_getElem? tick (s.iterations + 1) queried.progress queried.database i).trans
    rw [stillPlaced]
    rfl
  · change suppliedAt tick (s.iterations + 1) queried.progress queried.database i = _
    rw [suppliedAt, stillPlaced]

/-- In one iteration, a capture rule that has not failed is handed what the
iteration records. -/
theorem iterate_fed {s : Settling} {i : Nat} {here : Progress} {tick : Nat} {pattern : Claim}
    {callback : Context → Match → Reaction} (indexed : s.database.store.Indexed)
    (placed : s.progress[i]? = some here) (body : here.rule.body = .capture pattern callback)
    (fed : here.Fed tick callback (s.captured pattern.name)) :
    (s.callsAt tick i =
      if here.retired = true ∨ s.recorded pattern.name = [] then
        []
      else
        [here.rule.invoke tick (s.iterations + 1) (s.captured pattern.name).length
          (s.recorded pattern.name)]) ∧
      ∃ after, (s.iterate tick).progress[i]? = some after ∧ after.rule = here.rule ∧
        after.Fed tick callback ((s.iterate tick).captured pattern.name) := by
  have capture := Rule.kind_of_capture body
  obtain ⟨db, sameCaptures, next, calls⟩ := iterate_capture placed capture tick
  have grown := iterate_captured indexed tick pattern.name
  have held : (db.captures.under pattern.name).toList =
      s.captured pattern.name ++ s.recorded pattern.name := by
    rw [sameCaptures]
    exact grown
  obtain ⟨supplied, stillFed⟩ := fed.supply body held (s.iterations + 1)
  refine ⟨calls.trans supplied, _, next, Progress.supply_rule .., ?_⟩
  rwa [grown]

/-! ## The calls of an iteration -/

/-- The calls of capture rules in a trace. -/
def captureCalls (trace : List Invocation) : List Invocation :=
  trace.filter fun invocation => invocation.rule.kind == .capture

/-- An iteration calls capture rules in the order of the rules. -/
theorem iterate_captureCalls (tick : Nat) (s : Settling) :
    captureCalls (s.iterate tick).trace =
      captureCalls s.trace ++ (List.range s.progress.length).flatMap (s.callsAt tick) := by
  let queried := queryAll tick (s.iterations + 1) s.progress s.database
  let supplied := supplyAll tick (s.iterations + 1) queried.progress queried.database
  have ofQuery : captureCalls queried.trace = [] := by
    apply List.filter_eq_nil_iff.mpr
    intro invocation called
    simp [ordinary_of_mem_queryAll invocation called]
  have ofSupply : captureCalls supplied.trace = supplied.trace := by
    apply List.filter_eq_self.mpr
    intro invocation called
    simp [capture_of_mem_supplyAll invocation called]
  have sameLength : queried.progress.length = s.progress.length := by
    simpa using congrArg List.length (queryAll_rules tick (s.iterations + 1) s.progress s.database)
  calc
    captureCalls (s.iterate tick).trace
    _ = captureCalls s.trace ++ captureCalls queried.trace ++ captureCalls supplied.trace := by
        simp only [captureCalls, ← List.filter_append]
        rfl
    _ = captureCalls s.trace ++ supplied.trace := by
        rw [ofQuery, ofSupply, List.append_nil]
    _ = captureCalls s.trace ++ (List.range s.progress.length).flatMap (s.callsAt tick) := by
        rw [supplyAll_trace, sameLength]
        rfl

end Settling

end Blackboard
