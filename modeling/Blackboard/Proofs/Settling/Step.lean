import Blackboard.Proofs.Query.Saturation
import Blackboard.Settle

/-!
# One iteration

What an iteration can do is said once here: how an ordinary rule queries
(`Progress.query_cases`), how a capture rule is supplied
(`Progress.supply_cases`), and how the two phases add up. A run is its last
iteration, started from a state that every invariant of an iteration holds of
(`Settling.exists_last_iteration`).

The store grows by the claims of the capture rules, in the order of the trace,
and by nothing else (`Settling.iterate_grows`).
-/

namespace Blackboard

namespace Rule

@[simp]
theorem invoke_rule (rule : Rule) (tick iteration turn : Nat) (matches_ : List Match) :
    (rule.invoke tick iteration turn matches_).rule = rule := rfl

end Rule

namespace Database

/-! ## Learning -/

theorem learn_cons (db : Database) (claim : Claim) (claims : List Claim) :
    db.learn (claim :: claims) =
      (((db.insert claim).learn claims).1,
        (Store.accepts claim && !db.contains claim) || ((db.insert claim).learn claims).2) := rfl

@[simp]
theorem learn_fst (db : Database) (claims : List Claim) :
    (db.learn claims).1 = db.insertAll claims := by
  induction claims generalizing db with
  | nil => rfl
  | cons claim claims ih =>
      rw [learn_cons]
      exact ih (db.insert claim)

theorem store_learn (db : Database) (claims : List Claim) :
    (db.learn claims).1.store = db.store.insertAll claims := by
  rw [learn_fst, store_insertAll]

/-- Learning claims none of which is new leaves an empty answer empty. -/
theorem answer_found_learn_eq_nil {db : Database} (indexed : db.store.Indexed)
    {claims : List Claim} (stale : (db.learn claims).2 = false) {patterns : List Claim}
    (empty : (db.store.answer patterns).found = []) :
    ((db.learn claims).1.store.answer patterns).found = [] := by
  induction claims generalizing db with
  | nil => exact empty
  | cons claim claims ih =>
      rw [learn_cons] at stale ⊢
      obtain ⟨notNovel, restStale⟩ := Bool.or_eq_false_iff.mp stale
      have known : Store.accepts claim = true → db.store.contains claim = true := by
        intro accepted
        rw [accepted, Bool.true_and] at notNovel
        simpa [contains] using notNovel
      exact ih (indexed.insert claim) restStale (indexed.answer_found_insert_eq_nil known empty)

end Database

namespace Progress

/-! ## Ordinary rules -/

/-- An ordinary rule that has not found anything yet in the tick. -/
def Waiting (progress : Progress) : Prop :=
  progress.retired = false ∧ progress.rule.kind ≠ .capture

instance (progress : Progress) : Decidable progress.Waiting :=
  inferInstanceAs (Decidable (_ ∧ _))

/-- A rule after it was handed what it found. -/
def retire (progress : Progress) (found : List Match) : Progress :=
  { progress with fired := progress.fired + found.length, retired := true }

/-- All that can happen when the ordinary rules are let query: a rule that does
not wait is passed over, and one that waits retires if it finds anything. -/
theorem query_cases (tick iteration : Nat) (progress : Progress) (db : Database) :
    (¬ progress.Waiting ∧ progress.query tick iteration db = (progress, db, [])) ∨
      (progress.Waiting ∧ (db.query progress.rule.patterns).1 = [] ∧
        progress.query tick iteration db =
          (progress, (db.query progress.rule.patterns).2, [])) ∨
      (progress.Waiting ∧ (db.query progress.rule.patterns).1 ≠ [] ∧
        progress.query tick iteration db =
          (progress.retire (db.query progress.rule.patterns).1,
            (db.query progress.rule.patterns).2,
            [progress.rule.invoke tick iteration 0 (db.query progress.rule.patterns).1])) := by
  by_cases waiting : progress.Waiting
  · have free : (progress.retired || progress.rule.kind == .capture) = false := by
      simp [waiting.1, waiting.2]
    by_cases nothing : (db.query progress.rule.patterns).1 = []
    · refine .inr (.inl ⟨waiting, nothing, ?_⟩)
      simp [query, free, nothing]
    · refine .inr (.inr ⟨waiting, nothing, ?_⟩)
      simp [query, free, nothing, retire]
  · have busy : (progress.retired || progress.rule.kind == .capture) = true := by
      unfold Waiting at waiting
      rw [not_and_or, not_not, Bool.not_eq_false] at waiting
      rcases waiting with retired | capture
      · simp [retired]
      · simp [capture]
    refine .inl ⟨waiting, ?_⟩
    simp [query, busy]

theorem query_rule (tick iteration : Nat) (progress : Progress) (db : Database) :
    (progress.query tick iteration db).1.rule = progress.rule := by
  rcases query_cases tick iteration progress db with
    ⟨_, result⟩ | ⟨_, _, result⟩ | ⟨_, _, result⟩
  all_goals rw [result]
  rfl

theorem query_store (tick iteration : Nat) (progress : Progress) (db : Database) :
    (progress.query tick iteration db).2.1.store = db.store := by
  rcases query_cases tick iteration progress db with
    ⟨_, result⟩ | ⟨_, _, result⟩ | ⟨_, _, result⟩
  all_goals rw [result]
  all_goals rfl

/-- The calls of a rule that queries hand it what it found. -/
theorem query_calls {tick iteration : Nat} {progress : Progress} {db : Database}
    {invocation : Invocation} (called : invocation ∈ (progress.query tick iteration db).2.2) :
    progress.rule.kind ≠ .capture ∧
      invocation =
        progress.rule.invoke tick iteration 0 (db.query progress.rule.patterns).1 := by
  rcases query_cases tick iteration progress db with
    ⟨_, result⟩ | ⟨_, _, result⟩ | ⟨waiting, _, result⟩
  all_goals rw [result] at called
  · cases called
  · cases called
  · exact ⟨waiting.2, List.mem_singleton.mp called⟩

/-! ## Capture rules -/

theorem pending_of_ordinary {progress : Progress} (ordinary : progress.rule.kind ≠ .capture)
    (db : Database) : progress.pending db = [] := by
  simp [pending, ordinary]

/-- A capture rule after it was handed what was pending. -/
def advance (progress : Progress) (invocation : Invocation) (pending : List Match) : Progress :=
  { progress with
    fired := progress.fired + pending.length
    cursor := progress.cursor + pending.length
    retired := invocation.failure.isSome }

/-- All that can happen when the capture rules are supplied: without pending
captures nothing does, and with them the rule is called and its claims are learned. -/
theorem supply_cases (tick iteration : Nat) (progress : Progress) (db : Database) :
    (progress.pending db = [] ∧
        progress.supply tick iteration db = (progress, db, [], false)) ∨
      ∃ invocation, progress.rule.kind = .capture ∧ progress.pending db ≠ [] ∧
        invocation =
          progress.rule.invoke tick iteration progress.cursor (progress.pending db) ∧
        progress.supply tick iteration db =
          (progress.advance invocation (progress.pending db),
            (db.learn invocation.contribution.claims).1, [invocation],
            (db.learn invocation.contribution.claims).2) := by
  by_cases nothing : progress.pending db = []
  · refine .inl ⟨nothing, ?_⟩
    simp [supply, nothing]
  · have capture : progress.rule.kind = .capture := by
      by_contra ordinary
      exact nothing (pending_of_ordinary ordinary db)
    refine .inr ⟨_, capture, nothing, rfl, ?_⟩
    simp [supply, nothing, advance]

theorem supply_of_ordinary {progress : Progress} (ordinary : progress.rule.kind ≠ .capture)
    (tick iteration : Nat) (db : Database) :
    progress.supply tick iteration db = (progress, db, [], false) := by
  rcases supply_cases tick iteration progress db with ⟨_, result⟩ | ⟨_, capture, _⟩
  · exact result
  · exact absurd capture ordinary

theorem supply_rule (tick iteration : Nat) (progress : Progress) (db : Database) :
    (progress.supply tick iteration db).1.rule = progress.rule := by
  rcases supply_cases tick iteration progress db with ⟨_, result⟩ | ⟨_, _, _, _, result⟩
  all_goals rw [result]
  rfl

/-- The calls of a capture rule that is supplied hand it what was pending. -/
theorem supply_calls {tick iteration : Nat} {progress : Progress} {db : Database}
    {invocation : Invocation} (called : invocation ∈ (progress.supply tick iteration db).2.2.1) :
    progress.rule.kind = .capture ∧
      ∃ turn pending, invocation = progress.rule.invoke tick iteration turn pending := by
  rcases supply_cases tick iteration progress db with ⟨_, result⟩ | ⟨_, capture, _, made, result⟩
  all_goals rw [result] at called
  · cases called
  · obtain rfl := List.mem_singleton.mp called
    exact ⟨capture, _, _, made⟩

/-! ## Idle rules -/

/-- The call that closing a tick makes for a rule, if it makes one. -/
def idleCalls (tick iteration : Nat) (progress : Progress) : List Invocation :=
  if progress.rule.kind = .grouped ∧ progress.fired = 0 then
    [progress.rule.invoke tick iteration 0 []]
  else
    []

theorem idleCalls_of_busy (progress : Progress)
    (busy : ¬ (progress.rule.kind = .grouped ∧ progress.fired = 0)) (tick iteration : Nat) :
    progress.idleCalls tick iteration = [] := if_neg busy

end Progress

namespace Settling

/-! ## The two phases -/

theorem queryAll_cons (tick iteration : Nat) (progress : Progress) (rest : List Progress)
    (db : Database) :
    queryAll tick iteration (progress :: rest) db =
      let first := progress.query tick iteration db
      let further := queryAll tick iteration rest first.2.1
      { further with
        progress := first.1 :: further.progress
        trace := first.2.2 ++ further.trace } := rfl

theorem supplyAll_cons (tick iteration : Nat) (progress : Progress) (rest : List Progress)
    (db : Database) :
    supplyAll tick iteration (progress :: rest) db =
      let first := progress.supply tick iteration db
      let further := supplyAll tick iteration rest first.2.1
      { further with
        progress := first.1 :: further.progress
        trace := first.2.2.1 ++ further.trace
        grew := first.2.2.2 || further.grew } := rfl

theorem queryAll_rules (tick iteration : Nat) (progress : List Progress) (db : Database) :
    (queryAll tick iteration progress db).progress.map Progress.rule =
      progress.map Progress.rule := by
  induction progress generalizing db with
  | nil => rfl
  | cons here rest ih =>
      rw [queryAll_cons]
      simp only [List.map_cons, Progress.query_rule, ih]

theorem queryAll_store (tick iteration : Nat) (progress : List Progress) (db : Database) :
    (queryAll tick iteration progress db).database.store = db.store := by
  induction progress generalizing db with
  | nil => rfl
  | cons here rest ih =>
      rw [queryAll_cons]
      exact (ih _).trans (Progress.query_store tick iteration here db)

theorem queryAll_calls {tick iteration : Nat} {progress : List Progress} {db : Database}
    {invocation : Invocation} (called : invocation ∈ (queryAll tick iteration progress db).trace) :
    ∃ rule ∈ progress.map Progress.rule, rule.kind ≠ .capture ∧
      ∃ found, invocation = rule.invoke tick iteration 0 found := by
  induction progress generalizing db with
  | nil => cases called
  | cons here rest ih =>
      rw [queryAll_cons] at called
      rcases List.mem_append.mp called with first | further
      · obtain ⟨ordinary, made⟩ := Progress.query_calls first
        exact ⟨here.rule, List.mem_cons_self, ordinary, _, made⟩
      · obtain ⟨rule, member, ordinary, made⟩ := ih further
        exact ⟨rule, List.mem_cons_of_mem _ member, ordinary, made⟩

theorem supplyAll_rules (tick iteration : Nat) (progress : List Progress) (db : Database) :
    (supplyAll tick iteration progress db).progress.map Progress.rule =
      progress.map Progress.rule := by
  induction progress generalizing db with
  | nil => rfl
  | cons here rest ih =>
      rw [supplyAll_cons]
      simp only [List.map_cons, Progress.supply_rule, ih]

theorem supplyAll_calls {tick iteration : Nat} {progress : List Progress} {db : Database}
    {invocation : Invocation}
    (called : invocation ∈ (supplyAll tick iteration progress db).trace) :
    ∃ rule ∈ progress.map Progress.rule, rule.kind = .capture ∧
      ∃ turn pending, invocation = rule.invoke tick iteration turn pending := by
  induction progress generalizing db with
  | nil => cases called
  | cons here rest ih =>
      rw [supplyAll_cons] at called
      rcases List.mem_append.mp called with first | further
      · obtain ⟨capture, turn, pending, made⟩ := Progress.supply_calls first
        exact ⟨here.rule, List.mem_cons_self, capture, turn, pending, made⟩
      · obtain ⟨rule, member, capture, made⟩ := ih further
        exact ⟨rule, List.mem_cons_of_mem _ member, capture, made⟩

theorem ordinary_of_mem_queryAll {tick iteration : Nat} {progress : List Progress}
    {db : Database} :
    ∀ invocation ∈ (queryAll tick iteration progress db).trace,
      invocation.rule.kind ≠ .capture := by
  intro invocation called
  obtain ⟨rule, _, ordinary, _, rfl⟩ := queryAll_calls called
  exact ordinary

theorem capture_of_mem_supplyAll {tick iteration : Nat} {progress : List Progress}
    {db : Database} :
    ∀ invocation ∈ (supplyAll tick iteration progress db).trace,
      invocation.rule.kind = .capture := by
  intro invocation called
  obtain ⟨rule, _, capture, _, _, rfl⟩ := supplyAll_calls called
  exact capture

/-! ## What the store takes up -/

/-- The claims of the capture rules in a trace, in the order in which they were made. -/
def captureClaims (trace : List Invocation) : List Claim :=
  (trace.filter fun invocation => invocation.rule.kind == .capture).flatMap
    fun invocation => invocation.contribution.claims

theorem captureClaims_append (first second : List Invocation) :
    captureClaims (first ++ second) = captureClaims first ++ captureClaims second := by
  simp [captureClaims]

theorem captureClaims_of_ordinary {trace : List Invocation}
    (ordinary : ∀ invocation ∈ trace, invocation.rule.kind ≠ .capture) :
    captureClaims trace = [] := by
  unfold captureClaims
  rw [List.filter_eq_nil_iff.mpr fun invocation called => by simp [ordinary invocation called]]
  rfl

theorem supplyAll_store (tick iteration : Nat) (progress : List Progress) (db : Database) :
    (supplyAll tick iteration progress db).database.store =
      db.store.insertAll (captureClaims (supplyAll tick iteration progress db).trace) := by
  induction progress generalizing db with
  | nil => rfl
  | cons here rest ih =>
      rw [supplyAll_cons]
      rcases Progress.supply_cases tick iteration here db with
        ⟨_, result⟩ | ⟨invocation, capture, _, made, result⟩
      · rw [result]
        exact ih db
      · have ofCapture : invocation.rule.kind = .capture := by rw [made]; exact capture
        have learned : captureClaims [invocation] = invocation.contribution.claims := by
          simp [captureClaims, ofCapture]
        rw [result, captureClaims_append, learned, Store.insertAll_append,
          ← Database.store_learn]
        exact ih _

/-- An invocation that hands one of the rules of a tick some matches. -/
def IsCall (tick : Nat) (rules : List Rule) (invocation : Invocation) : Prop :=
  ∃ rule ∈ rules, ∃ iteration turn matches_, invocation = rule.invoke tick iteration turn matches_

/-- An iteration extends the trace by calls of the rules, and the store by what
the capture rules claim in them. -/
theorem iterate_grows (tick : Nat) (s : Settling) :
    ∃ made, (s.iterate tick).trace = s.trace ++ made ∧
      (∀ invocation ∈ made, IsCall tick (s.progress.map Progress.rule) invocation) ∧
      (s.iterate tick).database.store = s.database.store.insertAll (captureClaims made) := by
  let queried := queryAll tick (s.iterations + 1) s.progress s.database
  let supplied := supplyAll tick (s.iterations + 1) queried.progress queried.database
  have sameRules : queried.progress.map Progress.rule = s.progress.map Progress.rule :=
    queryAll_rules ..
  refine ⟨queried.trace ++ supplied.trace, List.append_assoc .., ?_, ?_⟩
  · intro invocation called
    rcases List.mem_append.mp called with ofQuery | ofSupply
    · obtain ⟨rule, member, _, found, made⟩ := queryAll_calls ofQuery
      exact ⟨rule, member, _, _, found, made⟩
    · obtain ⟨rule, member, _, turn, pending, made⟩ := supplyAll_calls ofSupply
      exact ⟨rule, sameRules ▸ member, _, turn, pending, made⟩
  · have silent : captureClaims queried.trace = [] :=
      captureClaims_of_ordinary ordinary_of_mem_queryAll
    calc
      (s.iterate tick).database.store
      _ = queried.database.store.insertAll (captureClaims supplied.trace) :=
          supplyAll_store tick (s.iterations + 1) queried.progress queried.database
      _ = s.database.store.insertAll (captureClaims supplied.trace) := by
          rw [queryAll_store tick (s.iterations + 1) s.progress s.database]
      _ = s.database.store.insertAll (captureClaims (queried.trace ++ supplied.trace)) := by
          rw [captureClaims_append, silent, List.nil_append]

theorem iterate_indexed {s : Settling} (indexed : s.database.store.Indexed) (tick : Nat) :
    (s.iterate tick).database.store.Indexed := by
  obtain ⟨made, _, _, grown⟩ := iterate_grows tick s
  rw [grown]
  exact indexed.insertAll _

theorem iterate_rules (tick : Nat) (s : Settling) :
    (s.iterate tick).progress.map Progress.rule = s.progress.map Progress.rule :=
  (supplyAll_rules ..).trans (queryAll_rules ..)

/-! ## Runs -/

/-- What an iteration preserves holds before the last iteration of a run. -/
theorem exists_last_iteration {tick : Nat} {Invariant : Settling → Prop}
    (step : ∀ s, Invariant s → Invariant (s.iterate tick)) {ceiling : Option Nat} {fuel : Nat}
    {s last : Settling} (initial : Invariant s) (finished : s.run tick ceiling fuel = some last) :
    ∃ prior, Invariant prior ∧ last = prior.iterate tick := by
  induction fuel generalizing s with
  | zero => cases finished
  | succ fuel ih =>
      rw [run] at finished
      split at finished
      · exact ⟨s, initial, (Option.some.inj finished).symm⟩
      · exact ih (step s initial) finished

/-- What an iteration preserves holds at the end of a run. -/
theorem invariant_of_run {tick : Nat} {Invariant : Settling → Prop}
    (step : ∀ s, Invariant s → Invariant (s.iterate tick)) {ceiling : Option Nat} {fuel : Nat}
    {s last : Settling} (initial : Invariant s) (finished : s.run tick ceiling fuel = some last) :
    Invariant last := by
  obtain ⟨prior, holds, rfl⟩ := exists_last_iteration step initial finished
  exact step prior holds

/-- What a run that started from a database with rules has come to: the same rules,
calls of them, and the facts that the capture rules have added. -/
structure Traced (tick : Nat) (db : Database) (rules : List Rule) (s : Settling) : Prop where
  sameRules : s.progress.map Progress.rule = rules
  calls : ∀ invocation ∈ s.trace, IsCall tick rules invocation
  grown : s.database.store = db.store.insertAll (captureClaims s.trace)

theorem map_rule_ofRule (rules : List Rule) :
    (rules.map Progress.ofRule).map Progress.rule = rules := by
  simp [Progress.ofRule, Function.comp_def]

theorem Traced.start (tick : Nat) (db : Database) (rules : List Rule) :
    (start db rules).Traced tick db rules where
  sameRules := map_rule_ofRule rules
  calls := nofun
  grown := rfl

theorem Traced.iterate {tick : Nat} {db : Database} {rules : List Rule} {s : Settling}
    (traced : s.Traced tick db rules) : (s.iterate tick).Traced tick db rules := by
  obtain ⟨made, traceEq, calls, grown⟩ := iterate_grows tick s
  rw [traced.sameRules] at calls
  exact
    { sameRules := (iterate_rules tick s).trans traced.sameRules
      calls := by
        rw [traceEq]
        exact List.forall_mem_append.mpr ⟨traced.calls, calls⟩
      grown := by
        rw [grown, traceEq, captureClaims_append, Store.insertAll_append, traced.grown] }

theorem traced_of_run {tick : Nat} {db : Database} {rules : List Rule} {ceiling : Option Nat}
    {fuel : Nat} {last : Settling} (finished : (start db rules).run tick ceiling fuel = some last) :
    last.Traced tick db rules :=
  invariant_of_run (fun s (traced : s.Traced tick db rules) => traced.iterate)
    (Traced.start tick db rules) finished

/-! ## Closing the tick -/

theorem close_eq_flatMap (tick : Nat) (s : Settling) :
    s.close tick = s.progress.flatMap (Progress.idleCalls tick (s.iterations + 1)) := by
  unfold close
  induction s.progress with
  | nil => rfl
  | cons here rest ih =>
      rw [List.flatMap_cons, ← ih, Progress.idleCalls]
      by_cases idle : here.rule.kind = .grouped ∧ here.fired = 0 <;> simp [idle]

/-- A call that closes a tick is that of a grouped rule that has not fired. -/
theorem exists_progress_of_mem_close {tick : Nat} {s : Settling} {invocation : Invocation}
    (called : invocation ∈ s.close tick) :
    ∃ progress ∈ s.progress, progress.rule.kind = .grouped ∧ progress.fired = 0 ∧
      invocation = progress.rule.invoke tick (s.iterations + 1) 0 [] := by
  rw [close_eq_flatMap, List.mem_flatMap] at called
  rcases called with ⟨progress, member, idle⟩
  rw [Progress.idleCalls] at idle
  split at idle
  · rename_i unfired
    exact ⟨progress, member, unfired.1, unfired.2, List.mem_singleton.mp idle⟩
  · cases idle

/-- The calls that close a tick are calls of its rules. -/
theorem Traced.close_calls {tick : Nat} {db : Database} {rules : List Rule} {s : Settling}
    (traced : s.Traced tick db rules) :
    ∀ invocation ∈ s.close tick, IsCall tick rules invocation := by
  intro invocation called
  obtain ⟨progress, member, _, _, made⟩ := exists_progress_of_mem_close called
  exact ⟨progress.rule, traced.sameRules ▸ List.mem_map_of_mem member, _, _, _, made⟩

end Settling

end Blackboard
