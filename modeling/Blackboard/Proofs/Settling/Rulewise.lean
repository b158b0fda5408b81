import Blackboard.Proofs.Settling.Supply

/-!
# Iterations, rule by rule

Rules do not stand in each other's way within an iteration. What a rule finds when the
rules query depends on the store alone, which they leave as it is; what a capture rule is
handed afterwards depends on the captures alone, which supplying leaves as they are. So an
iteration does to every rule what it would do to it by itself (`Settling.iterate_progress`),
and its calls are those of each rule, one rule after the other (`Settling.iterate_trace`).
-/

namespace Blackboard

namespace Progress

/-! ## A rule that queries -/

/-- What a rule finds in a store if it waits. -/
def findings (store : Store) (progress : Progress) : List Match :=
  if progress.Waiting then (store.answer progress.rule.patterns).found else []

/-- A rule after it was let query a store. -/
def queried (store : Store) (progress : Progress) : Progress :=
  if progress.findings store = [] then progress else progress.retire (progress.findings store)

/-- The calls of a rule that is let query a store. -/
def queryCalls (tick iteration : Nat) (store : Store) (progress : Progress) : List Invocation :=
  if progress.findings store = [] then
    []
  else
    [progress.rule.invoke tick iteration 0 (progress.findings store)]

/-- Querying does to a rule what the store, and nothing else, decides. -/
theorem query_eq (tick iteration : Nat) (progress : Progress) (db : Database) :
    (progress.query tick iteration db).1 = progress.queried db.store ∧
      (progress.query tick iteration db).2.2 = progress.queryCalls tick iteration db.store := by
  unfold queried queryCalls findings
  rcases query_cases tick iteration progress db with
    ⟨passed, result⟩ | ⟨waiting, nothing, result⟩ | ⟨waiting, something, result⟩
  · rw [result, if_neg passed, if_pos rfl]
    exact ⟨rfl, rfl⟩
  · rw [result, if_pos waiting]
    exact ⟨(if_pos nothing).symm, (if_pos nothing).symm⟩
  · rw [result, if_pos waiting]
    exact ⟨(if_neg something).symm, (if_neg something).symm⟩

theorem queried_rule (store : Store) (progress : Progress) :
    (progress.queried store).rule = progress.rule := by
  unfold queried
  split <;> rfl

theorem findings_of_not_waiting {progress : Progress} (passed : ¬ progress.Waiting)
    (store : Store) : progress.findings store = [] := if_neg passed

theorem queried_of_not_waiting {progress : Progress} (passed : ¬ progress.Waiting)
    (store : Store) : progress.queried store = progress :=
  if_pos (findings_of_not_waiting passed store)

theorem not_waiting_of_capture {progress : Progress} (capture : progress.rule.kind = .capture) :
    ¬ progress.Waiting := fun waiting => waiting.2 capture

/-! ## A rule that is supplied -/

theorem pending_congr {db db' : Database} (same : db.captures = db'.captures)
    (progress : Progress) : progress.pending db = progress.pending db' := by
  unfold pending
  rw [same]

/-- Supplying does to a rule what the captures, and nothing else, decide. -/
theorem supply_congr {db db' : Database} (same : db.captures = db'.captures)
    (tick iteration : Nat) (progress : Progress) :
    (progress.supply tick iteration db).1 = (progress.supply tick iteration db').1 ∧
      (progress.supply tick iteration db).2.2.1 =
        (progress.supply tick iteration db').2.2.1 := by
  unfold supply
  rw [pending_congr same]
  by_cases nothing : progress.pending db' = [] <;> simp [nothing]

end Progress

namespace Settling

/-! ## The two phases -/

theorem queryAll_progress (tick iteration : Nat) (progress : List Progress) (db : Database) :
    (queryAll tick iteration progress db).progress = progress.map (Progress.queried db.store) := by
  induction progress generalizing db with
  | nil => rfl
  | cons here rest ih =>
      rw [queryAll_cons]
      simp only [ih, Progress.query_store, Progress.query_eq, List.map_cons]

theorem queryAll_trace (tick iteration : Nat) (progress : List Progress) (db : Database) :
    (queryAll tick iteration progress db).trace =
      progress.flatMap (Progress.queryCalls tick iteration db.store) := by
  induction progress generalizing db with
  | nil => rfl
  | cons here rest ih =>
      rw [queryAll_cons]
      simp only [ih, Progress.query_store, Progress.query_eq, List.flatMap_cons]

theorem supplyAll_congr {db db' : Database} (same : db.captures = db'.captures)
    (tick iteration : Nat) (progress : List Progress) :
    (supplyAll tick iteration progress db).progress =
        progress.map (fun here => (here.supply tick iteration db').1) ∧
      (supplyAll tick iteration progress db).trace =
        progress.flatMap (fun here => (here.supply tick iteration db').2.2.1) := by
  induction progress generalizing db with
  | nil => exact ⟨rfl, rfl⟩
  | cons here rest ih =>
      obtain ⟨progressEq, callsEq⟩ := here.supply_congr same tick iteration
      obtain ⟨restProgress, restCalls⟩ := ih ((here.supply_captures tick iteration db).trans same)
      rw [supplyAll_cons]
      simp only [restProgress, restCalls, progressEq, callsEq, List.map_cons, List.flatMap_cons,
        and_self]

/-! ## Iterations -/

/-- The database when the next iteration comes to its capture rules. -/
def midway (tick : Nat) (s : Settling) : Database :=
  (queryAll tick (s.iterations + 1) s.progress s.database).database

theorem midway_captures (tick : Nat) (s : Settling) :
    (s.midway tick).captures = (s.iterate tick).database.captures :=
  (iterate_captures tick s).symm

/-- When capture rules are supplied, the captures of the iteration have been recorded. -/
theorem midway_under {s : Settling} (indexed : s.database.store.Indexed) (tick : Nat)
    (name : String) :
    ((s.midway tick).captures.under name).toList = s.captured name ++ s.recorded name := by
  rw [midway_captures]
  exact iterate_captured indexed tick name

/-- What the next iteration makes of a rule when it is supplied, having queried. -/
def supplied (tick : Nat) (s : Settling) (here : Progress) :
    Progress × Database × List Invocation × Bool :=
  (here.queried s.database.store).supply tick (s.iterations + 1) (s.midway tick)

theorem supplied_rule (tick : Nat) (s : Settling) (here : Progress) :
    (s.supplied tick here).1.rule = here.rule :=
  (Progress.supply_rule ..).trans (here.queried_rule s.database.store)

theorem supplied_of_ordinary {here : Progress} (ordinary : here.rule.kind ≠ .capture)
    (tick : Nat) (s : Settling) :
    s.supplied tick here = (here.queried s.database.store, s.midway tick, [], false) := by
  apply Progress.supply_of_ordinary
  rwa [Progress.queried_rule]

theorem supplied_of_capture {here : Progress} (capture : here.rule.kind = .capture)
    (tick : Nat) (s : Settling) :
    s.supplied tick here = here.supply tick (s.iterations + 1) (s.midway tick) := by
  rw [supplied, Progress.queried_of_not_waiting (Progress.not_waiting_of_capture capture)]

/-- The calls that the next iteration makes when the rules query, rule by rule. -/
def queryRound (tick : Nat) (s : Settling) : List (List Invocation) :=
  s.progress.map (Progress.queryCalls tick (s.iterations + 1) s.database.store)

/-- The calls that the next iteration makes when the capture rules are supplied, rule
by rule. -/
def supplyRound (tick : Nat) (s : Settling) : List (List Invocation) :=
  s.progress.map fun here => (s.supplied tick here).2.2.1

/-- The calls that close a tick, rule by rule. -/
def closeRound (tick : Nat) (s : Settling) : List (List Invocation) :=
  s.progress.map (Progress.idleCalls tick (s.iterations + 1))

/-- Supplying goes through the rules as querying has left them. -/
theorem supplyAll_queryAll (tick : Nat) (s : Settling) :
    let queried := queryAll tick (s.iterations + 1) s.progress s.database
    let pass := supplyAll tick (s.iterations + 1) queried.progress queried.database
    pass.progress = s.progress.map (fun here => (s.supplied tick here).1) ∧
      pass.trace = (s.supplyRound tick).flatten := by
  intro queried pass
  have progressEq : queried.progress = s.progress.map (Progress.queried s.database.store) :=
    queryAll_progress ..
  have supplied : pass.progress = _ ∧ pass.trace = _ :=
    supplyAll_congr (rfl : queried.database.captures = (s.midway tick).captures) tick
      (s.iterations + 1) queried.progress
  rw [progressEq, List.map_map, List.flatMap_map, List.flatMap_def] at supplied
  exact supplied

/-- An iteration lets every rule query, and supplies it. -/
theorem iterate_progress (tick : Nat) (s : Settling) :
    (s.iterate tick).progress = s.progress.map fun here => (s.supplied tick here).1 :=
  (supplyAll_queryAll tick s).1

theorem iterate_trace (tick : Nat) (s : Settling) :
    (s.iterate tick).trace =
      s.trace ++ ((s.queryRound tick).flatten ++ (s.supplyRound tick).flatten) := by
  rw [← (supplyAll_queryAll tick s).2, ← List.append_assoc, queryRound, ← List.flatMap_def,
    ← queryAll_trace]
  rfl

theorem close_eq_flatten (tick : Nat) (s : Settling) :
    s.close tick = (s.closeRound tick).flatten := by
  rw [close_eq_flatMap, closeRound, List.flatMap_def]

/-- The calls for the capture rule at a position are its entry. -/
theorem callsAt_eq (tick : Nat) (s : Settling) (i : Nat) :
    s.callsAt tick i = ((s.supplyRound tick)[i]?).getD [] := by
  unfold callsAt suppliedAt
  dsimp only
  rw [queryAll_progress, List.getElem?_map, supplyRound, List.getElem?_map]
  cases s.progress[i]? with
  | none => rfl
  | some here => exact (Progress.supply_congr (supplyAll_captures ..) ..).2

/-- The calls of a number of iterations. -/
theorem trace_stage (tick : Nat) (s : Settling) (iterations : Nat) :
    (s.stage tick iterations).trace =
      s.trace ++ (List.range iterations).flatMap fun k =>
        ((s.stage tick k).queryRound tick).flatten ++
          ((s.stage tick k).supplyRound tick).flatten := by
  induction iterations with
  | zero => simp
  | succ iterations ih =>
      rw [stage_succ, iterate_trace, ih, List.range_succ, List.flatMap_append,
        List.flatMap_singleton, List.append_assoc]

end Settling

end Blackboard
