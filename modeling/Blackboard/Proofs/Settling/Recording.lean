import Blackboard.Proofs.Query.Misses
import Blackboard.Proofs.Settling.Step

/-!
# What a tick records

Captures are recorded while the waiting rules query, and at no other time: an
iteration appends to the captures of every name what the failing patterns of its
queries capture, and it keeps the templates (`iterate_captured`). A run is a number
of iterations, so the captures of a tick are those of its iterations, one after the
other (`captured_stage`).
-/

namespace Blackboard

namespace Database

theorem captures_insertAll (db : Database) (claims : List Claim) :
    (db.insertAll claims).captures = db.captures := by
  induction claims generalizing db with
  | nil => rfl
  | cons claim claims ih => exact ih (db.insert claim)

theorem captures_learn (db : Database) (claims : List Claim) :
    (db.learn claims).1.captures = db.captures := by
  rw [learn_fst, captures_insertAll]

end Database

namespace Progress

theorem query_database (tick iteration : Nat) (progress : Progress) (db : Database) :
    (progress.query tick iteration db).2.1 =
      if progress.Waiting then (db.query progress.rule.patterns).2 else db := by
  rcases query_cases tick iteration progress db with
    ⟨passed, result⟩ | ⟨waiting, _, result⟩ | ⟨waiting, _, result⟩
  · rw [result, if_neg passed]
  · rw [result, if_pos waiting]
  · rw [result, if_pos waiting]

/-- What the capture rules claim is stored, but not captured. -/
theorem supply_captures (tick iteration : Nat) (progress : Progress) (db : Database) :
    (progress.supply tick iteration db).2.1.captures = db.captures := by
  rcases supply_cases tick iteration progress db with ⟨_, result⟩ | ⟨invocation, _, _, _, result⟩
  · rw [result]
  · rw [result]
    exact db.captures_learn invocation.contribution.claims

end Progress

namespace Settling

/-! ## The two phases -/

/-- The patterns that fail when waiting rules query a store, rule by rule. -/
def failuresOf (store : Store) (progress : List Progress) : List (Claim × Match) :=
  (progress.filter fun here => decide here.Waiting).flatMap fun here =>
    Store.failures store.facts here.rule.patterns

theorem failuresOf_cons (store : Store) (here : Progress) (rest : List Progress) :
    failuresOf store (here :: rest) =
      (if here.Waiting then Store.failures store.facts here.rule.patterns else []) ++
        failuresOf store rest := by
  by_cases waiting : here.Waiting <;> simp [failuresOf, waiting]

theorem queryAll_templates (tick iteration : Nat) (progress : List Progress) (db : Database) :
    (queryAll tick iteration progress db).database.captures.templates =
      db.captures.templates := by
  induction progress generalizing db with
  | nil => rfl
  | cons here rest ih =>
      rw [queryAll_cons]
      apply (ih _).trans
      rw [Progress.query_database]
      split
      · exact db.templates_query here.rule.patterns
      · rfl

/-- Rules that query record what their failing patterns capture. -/
theorem queryAll_under {db : Database} (indexed : db.store.Indexed) (tick iteration : Nat)
    (progress : List Progress) (name : String) :
    ((queryAll tick iteration progress db).database.captures.under name).toList =
      (db.captures.under name).toList ++
        (failuresOf db.store progress).filterMap (db.captures.captureOf? name) := by
  induction progress generalizing db with
  | nil => simp [queryAll, failuresOf]
  | cons here rest ih =>
      rw [queryAll_cons, failuresOf_cons, List.filterMap_append]
      have next := @ih (here.query tick iteration db).2.1
      rw [Progress.query_store] at next
      apply (next indexed).trans
      rw [Progress.query_database]
      by_cases waiting : here.Waiting
      · rw [if_pos waiting, if_pos waiting, db.under_query, indexed.answer_misses,
          Captures.captureOf?_congr (db.templates_query here.rule.patterns), List.append_assoc]
      · rw [if_neg waiting, if_neg waiting]
        rfl

theorem supplyAll_captures (tick iteration : Nat) (progress : List Progress) (db : Database) :
    (supplyAll tick iteration progress db).database.captures = db.captures := by
  induction progress generalizing db with
  | nil => rfl
  | cons here rest ih =>
      rw [supplyAll_cons]
      exact (ih _).trans (here.supply_captures tick iteration db)

/-! ## Iterations -/

/-- The patterns that fail in the next iteration, in the order of the queries. -/
def failures (s : Settling) : List (Claim × Match) := failuresOf s.database.store s.progress

/-- What the next iteration records under a name. -/
def recorded (s : Settling) (name : String) : List Match :=
  s.failures.filterMap (s.database.captures.captureOf? name)

/-- The captures of a name so far. -/
def captured (s : Settling) (name : String) : List Match :=
  (s.database.captures.under name).toList

theorem iterate_captures (tick : Nat) (s : Settling) :
    (s.iterate tick).database.captures =
      (queryAll tick (s.iterations + 1) s.progress s.database).database.captures :=
  supplyAll_captures ..

theorem iterate_templates (tick : Nat) (s : Settling) :
    (s.iterate tick).database.captures.templates = s.database.captures.templates := by
  rw [iterate_captures, queryAll_templates]

/-- An iteration only appends to the captures of a name. -/
theorem iterate_captured {s : Settling} (indexed : s.database.store.Indexed) (tick : Nat)
    (name : String) : (s.iterate tick).captured name = s.captured name ++ s.recorded name := by
  unfold captured
  rw [iterate_captures]
  exact queryAll_under indexed tick _ s.progress name

/-! ## Runs -/

/-- The state of a tick after a number of iterations. -/
def stage (tick : Nat) (s : Settling) : Nat → Settling
  | 0 => s
  | iterations + 1 => (s.stage tick iterations).iterate tick

@[simp]
theorem stage_zero (tick : Nat) (s : Settling) : s.stage tick 0 = s := rfl

theorem stage_succ (tick : Nat) (s : Settling) (iterations : Nat) :
    s.stage tick (iterations + 1) = (s.stage tick iterations).iterate tick := rfl

theorem stage_iterate (tick : Nat) (s : Settling) (iterations : Nat) :
    (s.iterate tick).stage tick iterations = s.stage tick (iterations + 1) := by
  induction iterations with
  | zero => rfl
  | succ iterations ih =>
      rw [stage_succ, ih]
      rfl

theorem iterations_stage (tick : Nat) (s : Settling) (iterations : Nat) :
    (s.stage tick iterations).iterations = s.iterations + iterations := by
  induction iterations with
  | zero => rfl
  | succ iterations ih => exact congrArg (· + 1) ih

theorem iterations_stage_start (tick : Nat) (db : Database) (rules : List Rule)
    (iterations : Nat) : ((start db rules).stage tick iterations).iterations = iterations := by
  rw [iterations_stage]
  exact Nat.zero_add iterations

/-- A run that ends is the number of iterations that it counts. -/
theorem stage_of_run {tick : Nat} {ceiling : Option Nat} {fuel : Nat} {s last : Settling}
    (finished : s.run tick ceiling fuel = some last) :
    ∃ iterations, last = s.stage tick iterations := by
  induction fuel generalizing s with
  | zero => cases finished
  | succ fuel ih =>
      rw [run] at finished
      split at finished
      · exact ⟨1, (Option.some.inj finished).symm⟩
      · obtain ⟨iterations, rfl⟩ := ih finished
        exact ⟨iterations + 1, s.stage_iterate tick iterations⟩

theorem eq_stage_of_run {tick : Nat} {db : Database} {rules : List Rule} {ceiling : Option Nat}
    {fuel : Nat} {last : Settling} (finished : (start db rules).run tick ceiling fuel = some last) :
    last = (start db rules).stage tick last.iterations := by
  obtain ⟨iterations, rfl⟩ := stage_of_run finished
  rw [iterations_stage_start]

theorem stage_indexed {s : Settling} (indexed : s.database.store.Indexed) (tick iterations : Nat) :
    (s.stage tick iterations).database.store.Indexed := by
  induction iterations with
  | zero => exact indexed
  | succ iterations ih => exact iterate_indexed ih tick

theorem stage_templates (tick : Nat) (s : Settling) (iterations : Nat) :
    (s.stage tick iterations).database.captures.templates = s.database.captures.templates := by
  induction iterations with
  | zero => rfl
  | succ iterations ih => rw [stage_succ, iterate_templates, ih]

/-- The captures of a tick are those of its iterations, one after the other. -/
theorem captured_stage {s : Settling} (indexed : s.database.store.Indexed) (tick : Nat)
    (name : String) (iterations : Nat) :
    (s.stage tick iterations).captured name =
      s.captured name ++
        (List.range iterations).flatMap fun k => (s.stage tick k).recorded name := by
  induction iterations with
  | zero => simp
  | succ iterations ih =>
      rw [stage_succ, iterate_captured (stage_indexed indexed tick iterations), ih,
        List.range_succ, List.flatMap_append, List.append_assoc]
      simp

end Settling

end Blackboard
