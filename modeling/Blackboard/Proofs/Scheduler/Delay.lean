import Blackboard.Proofs.Scheduler.Reachable

/-!
# What a tick sees, and what it leaves

The claims of callbacks are delayed by one tick. A tick starts from the facts
among the claims of the world and among the base facts, and only its capture
rules add to them. Everything that its callbacks contribute takes the place of
what they contributed in the tick before (`Scheduler.Reachable.tick_course`).

A program that starts owns nothing yet, and still it is purged. This shows in one
case: the error of the engine goes if a program of its name starts
(`Scheduler.engine_error_lost_to_namesake`).
-/

namespace Blackboard

namespace World

/-- What a world keeps when programs are brought in line: nothing of a program
that stops or starts again. The error of the engine goes, too, if a program
starts that has the engine's name. -/
def kept (world : World) (changes : Changes) : World :=
  let others :=
    world.filter fun owner _ => !(changes.stopped ++ changes.restarted).contains owner
  { others with
    errors := others.errors.filter fun entry =>
      !(changes.started.contains .core && entry.source == .core) }

theorem kept_append (first second : World) (changes : Changes) :
    (first ++ second).kept changes = first.kept changes ++ second.kept changes := by
  unfold kept
  rw [filter_append]
  apply ext
  · rfl
  · rfl
  · exact List.filter_append ..
  · rfl

theorem Every.kept {world : World} {property : ProgramId → Bool → Prop}
    (every : world.Every property) (changes : Changes) : (world.kept changes).Every property :=
  have others := (every.filter
    fun owner _ => !(changes.stopped ++ changes.restarted).contains owner).mono
      fun _ _ both => both.1
  { claims := others.claims
    rules := others.rules
    errors := fun entry member => others.errors entry (List.mem_filter.mp member).1
    logs := others.logs }

/-- What programs that start contribute, in the order of the list. -/
def registered (tick : Nat) (programs : List Program) (changes : Changes) : World :=
  concat ((programs.filter fun program =>
      changes.started.contains program.id || changes.restarted.contains program.id).map
    fun program => program.registration tick)

theorem registered_static (tick : Nat) (programs : List Program) (changes : Changes) :
    (registered tick programs changes).Every fun _ isDynamic => isDynamic = false := by
  apply every_concat
  intro world member
  obtain ⟨program, _, rfl⟩ := List.mem_map.mp member
  exact (program.registration_every tick).mono fun _ _ owned => owned.2

end World

namespace Board

section Sync

variable {programs : List Program} (nodup : (programs.map Program.id).Nodup)

include nodup in
/-- Whether what belongs to a running program is left alone does not depend on
which programs start. -/
theorem left_alone_of_running (tick : Nat) {board : Board} {owner : ProgramId}
    (running : board.roster.contains owner = true) :
    (!(board.missingFrom programs).contains owner &&
        !((board.stale programs).map Program.id).contains owner) =
      !((board.sync tick programs).2.stopped ++
        (board.sync tick programs).2.restarted).contains owner := by
  have notStarted : owner ∉ (board.sync tick programs).2.started := fun started => by
    rw [not_running_of_started nodup started] at running
    cases running
  have stoppedEq : (board.sync tick programs).2.stopped = board.missingFrom programs := by
    rw [sync_changes nodup]
  rw [← Bool.not_or, Bool.not_inj_iff, Bool.eq_iff_iff, stoppedEq]
  simp [mem_stale_ids_iff nodup tick, notStarted]

include nodup in
/-- An error of the engine is left alone unless a program of its name starts. -/
theorem left_alone_of_engine (tick : Nat) {board : Board}
    (absent : board.roster.contains .core = false) :
    (!(board.missingFrom programs).contains .core &&
        !((board.stale programs).map Program.id).contains .core) =
      (!(board.sync tick programs).2.started.contains .core &&
        !((board.sync tick programs).2.stopped ++
          (board.sync tick programs).2.restarted).contains .core) := by
  have stoppedEq : (board.sync tick programs).2.stopped = board.missingFrom programs := by
    rw [sync_changes nodup]
  have notStopped : .core ∉ board.missingFrom programs := fun missing => by
    rw [((mem_missingFrom_iff board programs .core).mp missing).1] at absent
    cases absent
  have notRestarted : .core ∉ (board.sync tick programs).2.restarted := fun restarted => by
    rw [running_of_restarted nodup restarted] at absent
    cases absent
  rw [stoppedEq]
  simp [mem_stale_ids_iff nodup tick, notStopped, notRestarted]

include nodup in
/-- If every entry belongs to a running program or is an error of the engine,
bringing the board in line keeps all but those of the programs that stop or
start again, and adds what the programs contribute that start. -/
theorem Housed.world_sync {board : Board} (housed : board.Housed) (tick : Nat) :
    (board.sync tick programs).1.world =
      board.world.kept (board.sync tick programs).2 ++
        .registered tick programs (board.sync tick programs).2 := by
  have ofEntry : ∀ entry ∈ board.world.errors,
      (!(board.missingFrom programs).contains entry.source &&
          !((board.stale programs).map Program.id).contains entry.source) =
        (!((board.sync tick programs).2.started.contains .core && entry.source == .core) &&
          !((board.sync tick programs).2.stopped ++
            (board.sync tick programs).2.restarted).contains entry.source) := by
    intro entry member
    by_cases running : board.roster.contains entry.source = true
    · have others :
          ((board.sync tick programs).2.started.contains .core && entry.source == .core) =
            false := by
        rw [Bool.and_eq_false_iff, beq_eq_false_iff_ne]
        by_contra both
        simp only [not_or, Bool.not_eq_false, not_not] at both
        rw [both.2, not_running_of_started nodup (List.contains_iff_mem.mp both.1)] at running
        cases running
      rw [left_alone_of_running nodup tick running, others, Bool.not_false, Bool.true_and]
    · have engine : entry.source = .core :=
        ((housed.errors entry member).resolve_left running).1
      rw [engine, Bool.not_eq_true] at running
      rw [engine, left_alone_of_engine nodup tick running, beq_self_eq_true, Bool.and_true]
  rw [Board.world_sync nodup, stale_eq_filter_changes nodup tick]
  congr 1
  rw [← stale_eq_filter_changes nodup tick]
  apply World.ext
  · exact List.filter_congr fun claim member =>
      left_alone_of_running nodup tick (housed.claims claim member)
  · exact List.filter_congr fun rule member =>
      left_alone_of_running nodup tick (housed.rules rule member)
  · exact (List.filter_congr ofEntry).trans List.filter_filter.symm
  · exact List.filter_congr fun entry member =>
      left_alone_of_running nodup tick (housed.logs entry member)

end Sync

end Board

namespace Scheduler

theorem store_registerTemplates (db : Database) (rules : List Rule) :
    (db.registerTemplates rules).store = db.store := by
  unfold Database.registerTemplates
  induction rules generalizing db with
  | nil => rfl
  | cons rule rules ih =>
      rw [List.foldl_cons, ih]
      cases rule.body with
      | each patterns callback => rfl
      | grouped patterns callback => rfl
      | capture pattern callback =>
          dsimp only [Database.register]
          cases db.captures.register pattern <;> rfl

theorem store_opening (s : Scheduler) (board : Board) (millis : Int64) (programs : List Program) :
    (s.opening board millis programs).database.store =
      (∅ : Store).insertAll (s.initialFacts board millis programs) :=
  (store_registerTemplates _ _).trans (Database.store_insertAll _ _)

theorem opening_holds (s : Scheduler) (board : Board) (millis : Int64) (programs : List Program) :
    (s.opening board millis programs).database.store.Holds
      (s.initialFacts board millis programs) := by
  rw [store_opening]
  exact Store.holds_empty.insertAll _

/-- The course of a tick with a list of programs: what it sees, what its rules
add to the facts, and what it leaves to the tick after it. -/
structure TickCourse (s s' : Scheduler) (millis : Int64) (programs : List Program)
    (settling : Settling) : Prop where
  /-- The world that the tick sees: what the last one left, without the programs that stop or
  start again, and without the error of the engine if a program of its name starts; and what
  programs register that start. -/
  world : (s.synced programs).world =
    s.board.world.kept (s.board.sync (s.ticks + 1) (Program.firstById programs)).2 ++
      .registered (s.ticks + 1) (Program.firstById programs)
        (s.board.sync (s.ticks + 1) (Program.firstById programs)).2
  /-- It starts from the facts of this world and the base facts. -/
  opening : (s.opening (s.synced programs) millis programs).database.store.Holds
    ((s.synced programs).world.claims ++
      s.baseFacts { tick := s.ticks + 1, millis } (Program.firstById programs))
  /-- Its rules are those of this world, and none has fired. -/
  rules : (s.opening (s.synced programs) millis programs).progress =
    (s.synced programs).world.rules.map Progress.ofRule
  calls : ∀ invocation ∈ settling.trace,
    Settling.IsCall (s.ticks + 1) (s.synced programs).world.rules invocation
  /-- It ends with the facts that it started from and those claimed in calls of
  capture rules, in the order of the calls. -/
  closing : settling.database.store.Holds
    ((s.synced programs).world.claims ++
      s.baseFacts { tick := s.ticks + 1, millis } (Program.firstById programs) ++
        Settling.captureClaims settling.trace)
  /-- A call of a capture rule claims all that its callback asserts for the matches
  that it was run for, the one for which it failed included. -/
  claimed : ∀ invocation ∈ settling.trace, ∀ pattern callback,
    invocation.rule.body = .capture pattern callback →
      ∃ turn, invocation.contribution.claims =
        (invocation.delivered.zipIdx turn).flatMap fun (m, turn) =>
          (callback (invocation.rule.context (s.ticks + 1) turn) m).actions.filterMap
            (invocation.rule.context (s.ticks + 1) turn).claim?
  database : s'.database = settling.database
  /-- It leaves the static entries that it saw, and then what its rules contributed. -/
  leaves : s'.board.world =
    (s.synced programs).world.retainStatic ++ settling.contribution (s.ticks + 1) s.limit
  dynamic : (settling.contribution (s.ticks + 1) s.limit).Every fun _ isDynamic => isDynamic = true
  /-- What the next tick sees of dynamic entries is what this one contributed. -/
  next : ∀ programs',
    ((s'.synced programs').world.filter fun _ isDynamic => isDynamic) =
      (settling.contribution (s.ticks + 1) s.limit).kept
        (s'.board.sync (s'.ticks + 1) (Program.firstById programs')).2

theorem Reachable.synced_world {s : Scheduler} (reachable : s.Reachable)
    (programs : List Program) :
    (s.synced programs).world =
      s.board.world.kept (s.board.sync (s.ticks + 1) (Program.firstById programs)).2 ++
        .registered (s.ticks + 1) (Program.firstById programs)
          (s.board.sync (s.ticks + 1) (Program.firstById programs)).2 :=
  reachable.housed.world_sync (Program.nodup_firstById programs) (s.ticks + 1)

theorem claims_of_isCall {tick : Nat} {rules : List Rule} {invocation : Invocation}
    (called : Settling.IsCall tick rules invocation) {pattern : Claim}
    {callback : Context → Match → Reaction}
    (capture : invocation.rule.body = .capture pattern callback) :
    ∃ turn, invocation.contribution.claims =
      (invocation.delivered.zipIdx turn).flatMap fun (m, turn) =>
        (callback (invocation.rule.context tick turn) m).actions.filterMap
          (invocation.rule.context tick turn).claim? := by
  rcases called with ⟨rule, _, iteration, turn, matches_, rfl⟩
  refine ⟨turn, ?_⟩
  rw [Rule.invoke_rule] at capture
  unfold Rule.invoke Rule.deliver
  rw [capture]
  exact rule.deliverEach_claims tick callback turn matches_

/-- Every tick of a reachable scheduler that ends takes this course. -/
theorem Reachable.tick_course {s s' : Scheduler} (reachable : s.Reachable) {patience : Nat}
    {millis : Int64} {programs : List Program} {report : TickReport}
    (ticked : s.tick? patience millis programs = some (report, s')) :
    ∃ settling,
      (s.opening (s.synced programs) millis programs).settle (s.ticks + 1) s.limit patience =
          some settling ∧
        s.TickCourse s' millis programs settling := by
  have nextReachable : s'.Reachable := .ticked reachable ticked
  obtain ⟨settling, settled, concluded⟩ := exists_settling_of_tick ticked
  have traced := traced_of_settle settled
  have dynamic := traced.contribution_dynamic s.limit
  have left : s' = (s.conclude (s.synced programs) settling).2 := by rw [concluded]
  have leaves : s'.board.world =
      (s.synced programs).world.retainStatic ++ settling.contribution (s.ticks + 1) s.limit := by
    rw [left]
    rfl
  refine ⟨settling, settled, ?_⟩
  exact
    { world := reachable.synced_world programs
      opening := opening_holds s (s.synced programs) millis programs
      rules := rfl
      calls := traced.calls
      closing := by
        rw [traced.grown]
        exact (opening_holds s (s.synced programs) millis programs).insertAll _
      claimed := fun invocation called pattern callback capture =>
        claims_of_isCall (traced.calls invocation called) capture
      database := by rw [left]; rfl
      leaves := leaves
      dynamic := dynamic
      next := by
        intro programs'
        have static := (s.synced programs).world.retainStatic_static
        rw [nextReachable.synced_world, leaves, World.kept_append, World.filter_append,
          World.filter_append, World.filter_eq_empty (static.kept _),
          World.filter_eq_self (dynamic.kept _),
          World.filter_eq_empty (World.registered_static _ _ _), World.empty_append,
          World.append_empty] }

/-- A program that derives one claim from another. The second tick is the first to
hold the derived one as a fact. -/
theorem tick_course_of_derived_claim :
    let derived : Claim := .fact "@ is very cool" [.text "Bart"]
    let program : Program :=
      { id := ⟨"1"⟩, codeHash := ⟨"v1"⟩
        registrar := fun _ =>
          ⟨[ .assert (.fact "@ is cool" [.text "Bart"]),
             .register (.each [{ name := "@ is cool", args := [.var "x"] }]
               fun _ _ => ⟨[.assert derived], .done⟩) ], .done⟩ }
    let s : Scheduler := { settings := {}, baseFacts := fun _ _ => [] }
    ∃ first s₁ second s₂ settling,
      s.tick? 1 0 [program] = some (first, s₁) ∧ s₁.database.contains derived = false ∧
        s₁.tick? 1 1 [program] = some (second, s₂) ∧ s₂.database.contains derived = true ∧
          s₁.TickCourse s₂ 1 [program] settling := by
  intro derived program s
  have evaluated : ((s.tick? 1 0 [program]).any fun (_, s₁) =>
      !s₁.database.contains derived && (s₁.tick? 1 1 [program]).any fun (_, s₂) =>
        s₂.database.contains derived) = true := by decide +kernel
  obtain ⟨⟨first, s₁⟩, ticked₁, outcome⟩ := (Option.any_eq_true _ _).mp evaluated
  obtain ⟨missing, outcome⟩ := Bool.and_eq_true_iff.mp outcome
  obtain ⟨⟨second, s₂⟩, ticked₂, present⟩ := (Option.any_eq_true _ _).mp outcome
  have reachable : s₁.Reachable := .ticked (.initial {} fun _ _ => []) ticked₁
  obtain ⟨settling, _, course⟩ := reachable.tick_course ticked₂
  exact ⟨first, s₁, second, s₂, settling, ticked₁, by simpa using missing, ticked₂, present,
    course⟩

/-- After a tick that did not settle a program starts that has the name of the engine. No
program stops or starts again, and yet the tick does not see the error of the engine. -/
theorem engine_error_lost_to_namesake :
    let kids (parent number : Arg) : Claim := { name := "@ has @ kids", args := [parent, number] }
    let curious : Program :=
      { id := ⟨"1"⟩, codeHash := ⟨"v1"⟩
        registrar := fun _ =>
          ⟨[ .register (.each [kids (.val (.text "Marge")) (.var "n")] fun _ _ => .idle),
             .register (.capture (kids (.var "p") (.var "?n")) fun _ _ =>
               ⟨[.assert (.fact "@ has @ kids" [.text "Marge", .int 3])], .done⟩) ], .done⟩ }
    let namesake : Program := { id := .core, codeHash := ⟨"v1"⟩, registrar := fun _ => .idle }
    let programs := [curious, namesake]
    let complaint : ErrorEntry :=
      { source := .core, isDynamic := true, message := "Tick did not settle after 1 iterations"
        site := none }
    let s : Scheduler :=
      { settings := { maxSettleIterations := some 1 }, baseFacts := fun _ _ => [] }
    ∃ report s₁, s.tick? 0 0 [curious] = some (report, s₁) ∧ s₁.Reachable ∧
      s₁.board.world.errors = [complaint] ∧
      (s₁.synced programs).world.errors = [] ∧
      let changes := (s₁.board.sync (s₁.ticks + 1) (Program.firstById programs)).2
      changes = { started := [.core] } ∧
      (s₁.synced programs).world ≠
        (s₁.board.world.filter fun owner _ =>
          !(changes.stopped ++ changes.restarted).contains owner) ++
          .registered (s₁.ticks + 1) (Program.firstById programs) changes := by
  intro kids curious namesake programs complaint s
  have evaluated : ((s.tick? 0 0 [curious]).any fun (_, s₁) =>
      decide (s₁.board.world.errors = [complaint]) &&
        (decide ((s₁.synced programs).world.errors = []) &&
          decide ((s₁.board.sync (s₁.ticks + 1) (Program.firstById programs)).2 =
            { started := [.core] }))) = true := by decide +kernel
  obtain ⟨⟨report, s₁⟩, ticked, outcome⟩ := (Option.any_eq_true _ _).mp evaluated
  obtain ⟨before, outcome⟩ := Bool.and_eq_true_iff.mp outcome
  obtain ⟨after, changed⟩ := Bool.and_eq_true_iff.mp outcome
  have reachable : s₁.Reachable := .ticked (.initial s.settings s.baseFacts) ticked
  refine ⟨report, s₁, ticked, reachable, of_decide_eq_true before, of_decide_eq_true after,
    of_decide_eq_true changed, fun same => ?_⟩
  -- what the other world holds of errors is at least that of the engine
  have errors := congrArg World.errors same
  rw [of_decide_eq_true changed, of_decide_eq_true after, World.errors_append] at errors
  have kept : complaint ∈ (s₁.board.world.filter fun owner _ =>
      !(([] : List ProgramId) ++ []).contains owner).errors :=
    List.mem_filter.mpr ⟨of_decide_eq_true before ▸ List.mem_singleton_self _, rfl⟩
  exact List.not_mem_nil (errors ▸ List.mem_append_left _ kept)

end Scheduler

end Blackboard
