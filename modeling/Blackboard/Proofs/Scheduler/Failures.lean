import Blackboard.Proofs.Diagnostics.Entries
import Blackboard.Proofs.Roster.Frame
import Blackboard.Proofs.Rule.Account
import Blackboard.Proofs.Scheduler.History
import Blackboard.Proofs.Scheduler.Templates
import Blackboard.Proofs.Settling.Failing
import Blackboard.Proofs.Settling.Termination

/-!
# A tick accounts for failures

Nothing that fails in a tick keeps it from ending, and its errors tell what failed: first
those that the running programs left when they registered, then those of the calls, in the
order in which they were made. A rule fails once at most, and what its callback did before
is kept (`Scheduler.Reachable.tick_accounts_for_failures`).
-/

namespace Blackboard

namespace Settling

/-- The error of a tick that did not settle under a limit. -/
def complaints (limit : Option Nat) (settled : Bool) : List ErrorEntry :=
  if settled then [] else limit.toList.map limitEntry

theorem mem_complaints_iff {limit : Option Nat} {settled : Bool} {entry : ErrorEntry} :
    entry ∈ complaints limit settled ↔
      settled = false ∧ ∃ allowed, limit = some allowed ∧ limitEntry allowed = entry := by
  rw [complaints]
  cases settled <;> simp

/-- The errors of a tick: those of the calls in the loop, that of the loop itself, and
those of the calls that close it. -/
theorem contribution_errors (tick : Nat) (limit : Option Nat) (s : Settling) :
    (s.contribution tick limit).errors =
      (s.trace.flatMap fun call => call.contribution.errors) ++ complaints limit s.settled ++
        (s.close tick).flatMap fun call => call.contribution.errors := by
  have ofCalls (calls : List Invocation) :
      (World.concat (calls.map fun call => call.contribution)).errors =
        calls.flatMap fun call => call.contribution.errors := by
    change List.flatMap _ _ = _
    rw [List.flatMap_map]
  unfold contribution
  dsimp only
  rw [World.errors_append, World.errors_append, ofCalls, ofCalls, complaints]
  congr 2
  cases limit with
  | none =>
      rw [Option.toList_none, List.map_nil, ite_self]
      rfl
  | some limit =>
      dsimp only
      split <;> rfl

/-- A run stops unsettled only at a limit. -/
theorem exists_limit_of_unsettled {tick : Nat} {limit : Option Nat} {fuel : Nat}
    {s last : Settling} (finished : s.run tick limit fuel = some last)
    (unsettled : last.settled = false) : ∃ allowed, limit = some allowed := by
  obtain ⟨_, _, _, stopped, _⟩ := (run_eq_some_iff ..).mp finished
  rw [stops, unsettled, Bool.false_or, Option.any_eq_true] at stopped
  obtain ⟨allowed, limited, _⟩ := stopped
  exact ⟨allowed, limited⟩

end Settling

namespace Launch

/-- What the registrar did when the program was started. -/
def reaction (launch : Launch) : Reaction :=
  launch.program.registrar (launch.program.context launch.tick)

end Launch

namespace Scheduler

/-! ## Ticks come to an end -/

/-- How a tick with a list of programs accounts for what failed in it, and for what failed
when its programs were started. -/
structure Accounting (s s' : Scheduler) (millis : Int64) (programs : List Program)
    (report : TickReport) (settling : Settling) (lineup : List Launch) : Prop where
  /-- The programs of the list are running, each with the registration that it owes its
  static entries to. -/
  lined : s'.board.Lined (Program.firstById programs) lineup
  /-- An error and a panic are failures, and nothing else is. -/
  failing : ∀ outcome : Outcome, outcome.failure? = none ↔ outcome = .done
  /-- A registration keeps what its registrar did, and a failure leaves one error. -/
  registered : ∀ launch ∈ lineup, launch.contribution =
    (launch.program.context launch.tick).contribution launch.reaction.actions ++
      .ofFailure (fun failure =>
        { source := launch.program.id, isDynamic := false, site := none
          message := (Failure.registrationFailed launch.program.id failure.cause).message })
        launch.reaction.outcome.failure?
  /-- The errors of a registration are static errors of its program. The reports have the
  places of their actions, the failure has none. -/
  registrationErrors : ∀ launch ∈ lineup, launch.contribution.errors =
    (launch.reaction.reports.map fun report =>
      { source := launch.program.id, isDynamic := false, message := report.1,
        site := some (.item (.registration launch.tick launch.program.id) report.2) }) ++
      launch.reaction.outcome.failure?.toList.map fun failure =>
        { source := launch.program.id, isDynamic := false, site := none
          message := (Failure.registrationFailed launch.program.id failure.cause).message }
  /-- It is not made again while the code hash of its program stays the same: whatever the
  next list, such a program does not start, and keeps what it owns. -/
  retained : ∀ next, ∀ program ∈ Program.firstById next, program.ListedIn programs →
    program.id ∉ (s'.board.sync (s'.ticks + 1) (Program.firstById next)).2.started ∧
      program.id ∉ (s'.board.sync (s'.ticks + 1) (Program.firstById next)).2.restarted ∧
      (s'.synced next).world.ownedBy program.id = s'.board.world.ownedBy program.id
  /-- A call keeps what the runs of its callback did, and a failure, which can only be that
  of the last run, leaves one error. All errors of a call are dynamic errors of the program
  of its rule. The reports have the places of their actions, the failure that where the rule
  was registered. -/
  calls : ∀ call ∈ settling.trace ++ settling.close (s.ticks + 1), ∃ turn found,
    call.rule.Accounts (s.ticks + 1) turn found call.toDelivery ∧
      call.contribution.errors =
        ((call.rule.runs (s.ticks + 1) turn call.delivered).flatMap fun run =>
          run.2.reports.map fun report =>
            { source := call.rule.source, isDynamic := true, message := report.1,
              site := some (.item run.1.origin report.2) }) ++
          call.failure.toList.map fun failure =>
            { source := call.rule.source, isDynamic := true, message := failure.message,
              site := some call.rule.id }
  /-- These are all calls of the tick, sorted by the rules that they belong to. -/
  ofRules : (settling.trace ++ settling.close (s.ticks + 1)).Perm
    ((List.range (s.synced programs).world.rules.length).flatMap fun i =>
      (s.opening (s.synced programs) millis programs).callsOf (s.ticks + 1) i
        settling.iterations)
  ofRule : ∀ i, ∀ call ∈ (s.opening (s.synced programs) millis programs).callsOf
      (s.ticks + 1) i settling.iterations,
    (s.synced programs).world.rules[i]? = some call.rule
  /-- A rule fails once at most. -/
  once : ∀ i, (Settling.failuresIn ((s.opening (s.synced programs) millis programs).callsOf
    (s.ticks + 1) i settling.iterations)).length ≤ 1
  /-- The world is made up of all that, and nothing else. -/
  world : s'.board.world =
    World.concat (lineup.map Launch.contribution) ++ settling.contribution (s.ticks + 1) s.limit
  errors : s'.board.world.errors =
    (lineup.flatMap fun launch => launch.contribution.errors) ++
      ((settling.trace.flatMap fun call => call.contribution.errors) ++
        Settling.complaints s.limit settling.settled ++
        (settling.close (s.ticks + 1)).flatMap fun call => call.contribution.errors)
  /-- The engine leaves one error if the loop did not settle, and else none. -/
  settled : settling.settled = true → Settling.complaints s.limit settling.settled = []
  unsettled : settling.settled = false →
    ∃ limit, s.limit = some limit ∧
      Settling.complaints s.limit settling.settled =
        [{ source := .core, isDynamic := true, site := none
           message := (Failure.settleLimitExceeded limit).message }]
  report : report.settled = settling.settled ∧
    report.errors = s'.board.world.errors.length ∧
    s'.diagnostics.errorCount = s'.board.world.errors.length

/-- A call is accounted for. -/
theorem accounts_of_isCall {tick : Nat} {rules : List Rule} {call : Invocation}
    (isCall : Settling.IsCall tick rules call) :
    ∃ turn found, call.rule.Accounts tick turn found call.toDelivery := by
  obtain ⟨rule, _, iteration, turn, found, rfl⟩ := isCall
  exact ⟨turn, found, rule.invoke_accounts tick iteration turn found⟩

theorem Reachable.accounting {s s' : Scheduler} (reachable : s.Reachable) {patience : Nat}
    {millis : Int64} {programs : List Program} {report : TickReport}
    (ticked : s.tick? patience millis programs = some (report, s')) :
    ∃ settling lineup,
      (s.opening (s.synced programs) millis programs).settle (s.ticks + 1) s.limit patience =
          some settling ∧
        s.Accounting s' millis programs report settling lineup := by
  obtain ⟨history, led⟩ := reachable.exists_led
  obtain ⟨lineup, held⟩ := (led.ticked ticked).exists_lineup
  have lined : s'.board.Lined (Program.firstById programs) lineup := by
    have now : current (history ++ [programs]) = Program.firstById programs := by simp [current]
    rw [← now]
    exact held.lined
  obtain ⟨settling, settled, concluded⟩ := exists_settling_of_tick ticked
  have traced := traced_of_settle settled
  have staged : settling = (s.opening (s.synced programs) millis programs).stage (s.ticks + 1)
      settling.iterations := Settling.eq_stage_of_run settled
  have sameStatic := (static_tick ticked).2.2
  have reportEq : report = (s.conclude (s.synced programs) settling).1 := by rw [concluded]
  have left : s' = (s.conclude (s.synced programs) settling).2 := by rw [concluded]
  have world : s'.board.world =
      World.concat (lineup.map Launch.contribution) ++
        settling.contribution (s.ticks + 1) s.limit := by
    rw [← lined.static, sameStatic, left]
    rfl
  refine ⟨settling, lineup, settled, ?_⟩
  exact
    { lined := lined
      failing := Outcome.failure?_eq_none_iff
      registered := fun launch _ => launch.program.registration_eq launch.tick
      registrationErrors := fun launch _ => launch.program.registration_errors launch.tick
      retained := by
        intro next program relisted kept
        obtain ⟨listed, inList, same⟩ := kept
        exact lined.retains (Program.nodup_firstById next) _ relisted inList same
      calls := by
        intro call called
        obtain ⟨turn, found, accounts⟩ := accounts_of_isCall
          ((List.mem_append.mp called).elim (traced.calls call) (traced.close_calls call))
        exact ⟨turn, found, accounts, accounts.errors⟩
      ofRules := by
        have sorted := Settling.calls_perm (s.ticks + 1)
          (s.opening (s.synced programs) millis programs).database
          (s.synced programs).world.rules settling.iterations
        have staged : settling = (Settling.start
          (s.opening (s.synced programs) millis programs).database
          (s.synced programs).world.rules).stage (s.ticks + 1) settling.iterations := staged
        rw [← staged] at sorted
        exact sorted
      ofRule := fun i call called => Settling.rule_of_mem_callsOf called
      once := fun i => Settling.failures_length_le_one
        (fun _ _ _ _ placed body => opening_opens placed body millis programs) _ i _
      world := world
      errors := by
        rw [world, World.errors_append, Settling.contribution_errors]
        congr 1
        change List.flatMap _ _ = _
        rw [List.flatMap_map]
      settled := fun settled => if_pos settled
      unsettled := by
        intro unsettled
        obtain ⟨limit, limited⟩ := Settling.exists_limit_of_unsettled settled unsettled
        refine ⟨limit, limited, ?_⟩
        rw [unsettled, limited]
        rfl
      report := by
        rw [reportEq, left]
        exact ⟨rfl, rfl, Report.errorCount_collect ..⟩ }

end Scheduler

end Blackboard
