import Blackboard.Proofs.Settling.Step

/-!
# A settled tick is complete

An ordinary rule that has not fired when a tick settles has nothing to find: its
patterns find nothing among the final facts (`Settling.run_settled_sound`). In
the last iteration every such rule queried before the capture rules were
supplied. What they stored afterwards was there already, or it was refused, so
that no answer that was empty then has become any longer.
-/

namespace Blackboard

namespace Progress

/-- An ordinary rule retires because it has fired, and for no other reason. -/
def Credited (progress : Progress) : Prop :=
  progress.rule.kind ≠ .capture → progress.retired = true → progress.fired ≠ 0

/-- An ordinary rule that has not fired finds nothing in a store. -/
def Attended (store : Store) (progress : Progress) : Prop :=
  progress.rule.kind ≠ .capture → progress.fired = 0 →
    (store.answer progress.rule.patterns).found = []

theorem credited_ofRule (rule : Rule) : (ofRule rule).Credited := by
  intro _ retired
  cases retired

theorem credited_retire (progress : Progress) {found : List Match} (something : found ≠ []) :
    (progress.retire found).Credited := by
  intro _ _
  have := List.length_pos_iff.mpr something
  simp only [retire]
  omega

/-- A rule that was let query is credited, and attended to. -/
theorem Credited.query {progress : Progress} (credited : progress.Credited)
    (tick iteration : Nat) (db : Database) :
    (progress.query tick iteration db).1.Credited ∧
      (progress.query tick iteration db).1.Attended db.store := by
  rcases query_cases tick iteration progress db with
    ⟨passed, result⟩ | ⟨_, nothing, result⟩ | ⟨waiting, something, result⟩
  all_goals rw [result]
  · refine ⟨credited, fun ordinary unfired => ?_⟩
    have retired : progress.retired = true := by
      by_contra unretired
      exact passed ⟨Bool.eq_false_iff.mpr unretired, ordinary⟩
    exact absurd unfired (credited ordinary retired)
  · exact ⟨credited, fun _ _ => nothing⟩
  · have fires := credited_retire progress something
    exact ⟨fires, fun ordinary unfired => absurd unfired (fires ordinary rfl)⟩

/-- Supplying touches no ordinary rule. -/
theorem Credited.supply {progress : Progress} (credited : progress.Credited)
    (tick iteration : Nat) (db : Database) :
    (progress.supply tick iteration db).1.Credited := by
  intro ordinary
  rw [supply_rule] at ordinary
  rw [supply_of_ordinary ordinary]
  exact credited ordinary

end Progress

namespace Settling

/-! ## The two phases -/

theorem queryAll_attended {progress : List Progress}
    (credited : ∀ here ∈ progress, here.Credited) (tick iteration : Nat) (db : Database) :
    ∀ here ∈ (queryAll tick iteration progress db).progress,
      here.Credited ∧ here.Attended db.store := by
  induction progress generalizing db with
  | nil => simp [queryAll]
  | cons first rest ih =>
      rw [queryAll_cons]
      simp only [List.forall_mem_cons] at credited ⊢
      refine ⟨credited.1.query tick iteration db, ?_⟩
      rw [← Progress.query_store tick iteration first db]
      exact ih credited.2 _

theorem supplyAll_credited {progress : List Progress}
    (credited : ∀ here ∈ progress, here.Credited) (tick iteration : Nat) (db : Database) :
    ∀ here ∈ (supplyAll tick iteration progress db).progress, here.Credited := by
  induction progress generalizing db with
  | nil => simp [supplyAll]
  | cons first rest ih =>
      rw [supplyAll_cons]
      simp only [List.forall_mem_cons] at credited ⊢
      exact ⟨credited.1.supply tick iteration db, ih credited.2 _⟩

/-- Capture rules are supplied without a trace in the ordinary ones. -/
theorem mem_of_mem_supplyAll {tick iteration : Nat} {progress : List Progress} {db : Database}
    {here : Progress} (member : here ∈ (supplyAll tick iteration progress db).progress)
    (ordinary : here.rule.kind ≠ .capture) : here ∈ progress := by
  induction progress generalizing db with
  | nil => cases member
  | cons first rest ih =>
      rw [supplyAll_cons] at member
      rcases List.mem_cons.mp member with rfl | further
      · rw [Progress.supply_rule] at ordinary
        rw [Progress.supply_of_ordinary ordinary]
        exact List.mem_cons_self
      · exact List.mem_cons_of_mem first (ih further)

/-- As long as the capture rules store nothing new, an empty answer stays empty. -/
theorem supplyAll_answer_found_eq_nil {tick iteration : Nat} {progress : List Progress}
    {db : Database} (indexed : db.store.Indexed)
    (stale : (supplyAll tick iteration progress db).grew = false) {patterns : List Claim}
    (empty : (db.store.answer patterns).found = []) :
    ((supplyAll tick iteration progress db).database.store.answer patterns).found = [] := by
  induction progress generalizing db with
  | nil => exact empty
  | cons first rest ih =>
      rw [supplyAll_cons] at stale ⊢
      obtain ⟨firstStale, restStale⟩ := Bool.or_eq_false_iff.mp stale
      rcases Progress.supply_cases tick iteration first db with
        ⟨_, result⟩ | ⟨invocation, _, _, _, result⟩
      · rw [result] at restStale ⊢
        exact ih indexed restStale empty
      · rw [result] at firstStale restStale ⊢
        have stillIndexed : (db.learn invocation.contribution.claims).1.store.Indexed := by
          rw [Database.store_learn]
          exact indexed.insertAll _
        exact ih stillIndexed restStale
          (Database.answer_found_learn_eq_nil indexed firstStale empty)

/-! ## Iterations and runs -/

/-- What holds between two iterations of a tick. -/
structure Accountable (s : Settling) : Prop where
  indexed : s.database.store.Indexed
  credited : ∀ progress ∈ s.progress, progress.Credited

theorem Accountable.start {db : Database} (indexed : db.store.Indexed) (rules : List Rule) :
    (start db rules).Accountable where
  indexed := indexed
  credited := by
    intro progress member
    obtain ⟨rule, _, rfl⟩ := List.mem_map.mp member
    exact Progress.credited_ofRule rule

theorem Accountable.iterate {s : Settling} (accountable : s.Accountable) (tick : Nat) :
    (s.iterate tick).Accountable where
  indexed := iterate_indexed accountable.indexed tick
  credited := by
    have queried := queryAll_attended accountable.credited tick (s.iterations + 1) s.database
    exact supplyAll_credited (fun here member => (queried here member).1) tick _ _

/-- After an iteration that settles, every ordinary rule has been attended to. -/
theorem Accountable.attended_of_settled {s : Settling} (accountable : s.Accountable) {tick : Nat}
    (settled : (s.iterate tick).settled = true) :
    ∀ progress ∈ (s.iterate tick).progress,
      progress.Attended (s.iterate tick).database.store := by
  intro progress member ordinary unfired
  let queried := queryAll tick (s.iterations + 1) s.progress s.database
  have sameStore : queried.database.store = s.database.store := queryAll_store ..
  have before : progress ∈ queried.progress := mem_of_mem_supplyAll member ordinary
  have attended := (queryAll_attended accountable.credited tick _ _ progress before).2
  have stale :
      (supplyAll tick (s.iterations + 1) queried.progress queried.database).grew = false := by
    simpa [Settling.iterate, queried] using settled
  refine supplyAll_answer_found_eq_nil (sameStore ▸ accountable.indexed) stale ?_
  rw [sameStore]
  exact attended ordinary unfired

theorem delivered_invoke_nil (rule : Rule) (tick iteration turn : Nat) :
    (rule.invoke tick iteration turn []).delivered = [] := by
  unfold Rule.invoke Rule.deliver
  cases rule.body <;> rfl

/-- If a tick settles, every ordinary rule that has not fired finds nothing among
the final facts. In particular, a grouped rule that is called without matches
when the tick is closed has none. -/
theorem run_settled_sound (tick : Nat) (claims : List Claim) (captures : Captures)
    (rules : List Rule) (ceiling : Option Nat) (fuel : Nat) (s : Settling)
    (finished : (start { store := Store.ofClaims claims, captures } rules).run tick ceiling fuel =
      some s)
    (settled : s.settled = true) :
    s.progress.map Progress.rule = rules ∧
      (∀ progress ∈ s.progress, progress.rule.kind ≠ .capture → progress.fired = 0 →
        (s.database.query progress.rule.patterns).1 = []) ∧
      ∀ invocation ∈ s.close tick,
        invocation.rule ∈ rules ∧ invocation.rule.kind = .grouped ∧ invocation.delivered = [] ∧
          (s.database.query invocation.rule.patterns).1 = [] := by
  have rulesEq := (traced_of_run finished).sameRules
  have indexed : ({ store := .ofClaims claims, captures } : Database).store.Indexed :=
    Store.indexed_ofClaims claims
  obtain ⟨prior, accountable, rfl⟩ := exists_last_iteration
    (fun s (accountable : s.Accountable) => accountable.iterate tick) (.start indexed rules)
    finished
  have attended := accountable.attended_of_settled settled
  refine ⟨rulesEq, attended, ?_⟩
  intro invocation called
  obtain ⟨progress, member, grouped, unfired, rfl⟩ := exists_progress_of_mem_close called
  have ordinary : progress.rule.kind ≠ .capture := by simp [grouped]
  refine ⟨?_, grouped, delivered_invoke_nil .., attended progress member ordinary unfired⟩
  rw [← rulesEq]
  exact List.mem_map_of_mem member

/-- A capture rule answers the miss of a grouped one with a fact of another name.
The second iteration stores it again, which is nothing new. -/
theorem run_settled_sound_of_miss :
    let warm (x : String) : Claim := { name := "@ is warm", args := [.var x] }
    let rules : List Rule :=
      [ { id := .given 0, body := .grouped [warm "x"] fun _ _ => .idle,
          source := .core, isDynamic := false },
        { id := .given 1,
          body := .capture (warm "?x") fun _ _ => ⟨[.assert (.fact "cold" [])], .done⟩,
          source := .core, isDynamic := false } ]
    let captures : Captures := { templates := Std.ExtTreeMap.ofList [("@ is warm", warm "?x")] }
    ∃ s, (start { store := Store.ofClaims [], captures } rules).run 1 (some 8) 8 = some s ∧
      s.settled = true ∧ s.iterations = 2 ∧
      (∀ progress ∈ s.progress, progress.rule.kind ≠ .capture → progress.fired = 0 →
        (s.database.query progress.rule.patterns).1 = []) := by
  intro warm rules captures
  have evaluated :
      ((start { store := Store.ofClaims [], captures } rules).run 1 (some 8) 8).any
        (fun s => s.settled && s.iterations == 2) = true := by decide +kernel
  obtain ⟨s, finished, outcome⟩ := Option.any_eq_true _ _ |>.mp evaluated
  obtain ⟨settled, iterations⟩ := Bool.and_eq_true_iff.mp outcome
  exact ⟨s, finished, settled, beq_iff_eq.mp iterations,
    (run_settled_sound 1 [] captures rules (some 8) 8 s finished settled).2.1⟩

end Settling

end Blackboard
