import Blackboard.Proofs.Scheduler.Delay
import Blackboard.Proofs.Scheduler.Failures

/-!
# Who owns what

Everything in the world of a scheduler belongs to a running program, but for the error of a
tick that did not settle (`Scheduler.Owned`). Static entries come before dynamic ones, the
dynamic ones are those that were made in the last tick, and no call makes an entry that
belongs to someone else. What a tick stores belongs to programs of its list, and to nothing
that they were before (`Scheduler.Reachable.world_is_owned`).
-/

namespace Blackboard

namespace Scheduler

/-- Everything on the board of a scheduler has its owner and its place, given whether the
last tick settled. -/
structure Owned (s : Scheduler) (settled : Bool) : Prop where
  claims : ∀ claim ∈ s.board.world.claims, s.isRunning claim.source = true
  rules : ∀ rule ∈ s.board.world.rules, s.isRunning rule.source = true
  logs : ∀ entry ∈ s.board.world.logs, s.isRunning entry.source = true
  /-- The errors, too, belong to running programs, apart from that of the engine: of dynamic
  errors it is the only one that has no place. -/
  errors : ∃ before after, s.board.world.errors =
      before ++ Settling.complaints s.limit settled ++ after ∧
    ∀ entry ∈ before ++ after, s.isRunning entry.source = true ∧
      (entry.isDynamic = true → entry.site ≠ none)
  unsettled : settled = false →
    ∃ limit, s.limit = some limit ∧
      Settling.complaints s.limit settled = [Settling.limitEntry limit]
  reported : ∀ id, s.diagnostics.program? id ≠ none ↔
    s.isRunning id = true ∨ (settled = false ∧ id = .core)
  /-- Of each kind, static entries come first. -/
  sorted : ∃ static dynamic, s.board.world = static ++ dynamic ∧
    static.Every (fun _ isDynamic => isDynamic = false) ∧
    dynamic.Every (fun _ isDynamic => isDynamic = true)

/-- Who owns what a tick with a list of programs leaves behind, and what it stores. -/
structure Ownership (s s' : Scheduler) (millis : Int64) (programs : List Program)
    (settling : Settling) (lineup : List Launch) : Prop where
  owned : s'.Owned settling.settled
  /-- The static entries are those of registrations, the dynamic ones those of this tick. -/
  world : s'.board.world =
    World.concat (lineup.map Launch.contribution) ++ settling.contribution (s.ticks + 1) s.limit
  /-- A registration makes nothing but static entries of its own program. -/
  registered : ∀ launch ∈ lineup, s'.isRunning launch.program.id = true ∧
    launch.contribution.Every fun owner isDynamic =>
      owner = launch.program.id ∧ isDynamic = false
  /-- A call makes nothing but dynamic entries of the program that the rule belongs to. -/
  called : ∀ call ∈ settling.trace ++ settling.close (s.ticks + 1),
    Settling.IsCall (s.ticks + 1) (s.synced programs).world.rules call ∧
      s'.isRunning call.rule.source = true ∧ call.contribution.Every call.rule.Dynamic
  /-- The errors of a program start with those that it registered. -/
  errorsOf : ∀ launch ∈ lineup, s'.board.world.errorsOf launch.program.id =
    launch.contribution.errors ++
      (settling.contribution (s.ticks + 1) s.limit).errorsOf launch.program.id
  stored : settling.database.store.Holds
    ((s.synced programs).world.claims ++
      s.baseFacts { tick := s.ticks + 1, millis } (Program.firstById programs) ++
        Settling.captureClaims settling.trace)
  /-- Apart from base facts, only claims of listed programs are stored. -/
  listed : ∀ claim ∈ (s.synced programs).world.claims ++ Settling.captureClaims settling.trace,
    claim.source ∈ programs.map Program.id
  /-- A program that starts, also again, owns nothing but what it registers, and what the
  rules claim that it registers. -/
  renewed : ∀ program ∈ Program.firstById programs, s.board.standing program ≠ .current →
    (s.synced programs).world.ownedBy program.id = program.registration (s.ticks + 1) ∧
      ∀ call ∈ settling.trace, call.rule.source = program.id →
        call.rule ∈ (program.registration (s.ticks + 1)).rules

/-! ## Owners -/

/-- A report on a world has an entry for whoever runs or owns an error, if everything else
belongs to someone who runs. -/
theorem program?_collect_ne_none_iff {tick : Nat} {roster : Roster} {world : World}
    {rules : List (Rule × Nat)} {id : ProgramId}
    (logs : ∀ entry ∈ world.logs, roster.contains entry.source = true)
    (records : ∀ entry ∈ rules, roster.contains entry.1.source = true) :
    (Report.collect tick roster.running world rules).program? id ≠ none ↔
      roster.contains id = true ∨ ∃ entry ∈ world.errors, entry.source = id := by
  rw [ne_eq, Report.program?_collect_eq_none_iff, Report.mem_running_iff]
  constructor
  · intro shown
    by_contra hidden
    rw [not_or] at hidden
    refine shown ⟨?_, ?_, ?_, hidden.1⟩
    · exact List.filter_eq_nil_iff.mpr fun entry member same =>
        hidden.1 (beq_iff_eq.mp same ▸ logs entry member)
    · rw [Report.recordsOf, List.map_eq_nil_iff]
      exact List.filter_eq_nil_iff.mpr fun entry member same =>
        hidden.1 (beq_iff_eq.mp same ▸ records entry member)
    · exact List.filter_eq_nil_iff.mpr fun entry member same =>
        hidden.2 ⟨entry, member, beq_iff_eq.mp same⟩
  · rintro (running | ⟨entry, member, same⟩) ⟨_, _, noErrors, notRunning⟩
    · exact notRunning running
    · exact List.filter_eq_nil_iff.mp noErrors entry member (beq_iff_eq.mpr same)

/-- What a tick sees of the world belongs to programs of its list. -/
theorem Reachable.housed_synced {s : Scheduler} (reachable : s.Reachable)
    (programs : List Program) :
    (s.synced programs).world.Housed
      fun id => id ∈ (Program.firstById programs).map Program.id := by
  have running : (fun id => id ∈ (Program.firstById programs).map Program.id) =
      fun id => (s.synced programs).roster.contains id = true :=
    funext fun id => propext (Board.contains_sync _ s.board id).symm
  rw [running]
  exact Scheduler.housed_synced reachable.housed programs

section Tick

variable {s s' : Scheduler} {millis : Int64} {programs : List Program} {report : TickReport}
  {settling : Settling} {lineup : List Launch}

/-- The calls of a tick are of rules of listed programs, and contribute on their behalf. -/
theorem Reachable.owned_call (reachable : s.Reachable) {patience : Nat}
    (settled : (s.opening (s.synced programs) millis programs).settle (s.ticks + 1) s.limit
      patience = some settling) :
    ∀ call ∈ settling.trace ++ settling.close (s.ticks + 1),
      call.rule ∈ (s.synced programs).world.rules ∧
        call.rule.source ∈ (Program.firstById programs).map Program.id ∧
        call.contribution.Every call.rule.Dynamic := by
  intro call made
  have traced := traced_of_settle settled
  have isCall : Settling.IsCall (s.ticks + 1) (s.synced programs).world.rules call :=
    (List.mem_append.mp made).elim (traced.calls call) (traced.close_calls call)
  obtain ⟨rule, member, iteration, turn, found, rfl⟩ := isCall
  exact ⟨member, (reachable.housed_synced programs).rules rule member,
    rule.invoke_every (s.ticks + 1) iteration turn found⟩

/-- After a tick, the programs of its list are running. -/
theorem Accounting.isRunning_iff (accounting : s.Accounting s' millis programs report settling
    lineup) (id : ProgramId) :
    s'.isRunning id = true ↔ id ∈ (Program.firstById programs).map Program.id :=
  accounting.lined.contains_iff id

/-- The errors of a tick other than that of the engine belong to running programs and, if
they are dynamic, say where they come from. -/
theorem Accounting.owned_errors (accounting : s.Accounting s' millis programs report settling
      lineup)
    (called : ∀ call ∈ settling.trace ++ settling.close (s.ticks + 1),
      s'.isRunning call.rule.source = true ∧ call.contribution.Every call.rule.Dynamic) :
    ∃ before after, s'.board.world.errors =
        before ++ Settling.complaints s.limit settling.settled ++ after ∧
      ∀ entry ∈ before ++ after, s'.isRunning entry.source = true ∧
        (entry.isDynamic = true → entry.site ≠ none) := by
  have ofCall : ∀ call ∈ settling.trace ++ settling.close (s.ticks + 1),
      ∀ entry ∈ call.contribution.errors, s'.isRunning entry.source = true ∧
        (entry.isDynamic = true → entry.site ≠ none) := by
    intro call made entry member
    obtain ⟨running, every⟩ := called call made
    refine ⟨?_, fun _ => ?_⟩
    · rw [(every.errors entry member).1]
      exact running
    · obtain ⟨_, _, accounts, _⟩ := accounting.calls call made
      exact accounts.located member
  have ofLaunch : ∀ launch ∈ lineup, ∀ entry ∈ launch.contribution.errors,
      s'.isRunning entry.source = true ∧ (entry.isDynamic = true → entry.site ≠ none) := by
    intro launch member entry made
    refine ⟨?_, fun isDynamic => ?_⟩
    · rw [launch.contribution_owned.errors entry made]
      exact accounting.lined.contains_of_launch member
    · rw [launch.contribution_static.errors entry made] at isDynamic
      cases isDynamic
  refine ⟨(lineup.flatMap fun launch => launch.contribution.errors) ++
      settling.trace.flatMap fun call => call.contribution.errors,
    (settling.close (s.ticks + 1)).flatMap fun call => call.contribution.errors, ?_, ?_⟩
  · rw [accounting.errors]
    simp only [List.append_assoc]
  · intro entry member
    simp only [List.mem_append, List.mem_flatMap] at member
    rcases member with (⟨launch, inLineup, made⟩ | ⟨call, inTrace, made⟩) | ⟨call, closing, made⟩
    · exact ofLaunch launch inLineup entry made
    · exact ofCall call (List.mem_append_left _ inTrace) entry made
    · exact ofCall call (List.mem_append_right _ closing) entry made

/-- A tick leaves everything with its owner and in its place. -/
theorem Reachable.owned_tick (reachable : s.Reachable) {patience : Nat}
    (ticked : s.tick? patience millis programs = some (report, s'))
    (settled : (s.opening (s.synced programs) millis programs).settle (s.ticks + 1) s.limit
      patience = some settling)
    (accounting : s.Accounting s' millis programs report settling lineup) :
    s'.Owned settling.settled := by
  have left : s' = (s.conclude (s.synced programs) settling).2 := by
    rw [tick?, settled] at ticked
    exact (congrArg Prod.snd (Option.some.inj ticked)).symm
  have housed : s'.board.Housed := (reachable.ticked ticked).housed
  have traced := traced_of_settle settled
  have sameLimit : s'.limit = s.limit := by rw [left]; rfl
  have errors := accounting.owned_errors fun call made =>
    have owned := reachable.owned_call settled call made
    ⟨(accounting.isRunning_iff _).mpr owned.2.1, owned.2.2⟩
  have records : ∀ entry ∈ settling.fired, s'.isRunning entry.1.source = true := by
    intro entry member
    obtain ⟨progress, held, rfl⟩ := List.mem_map.mp member
    refine (accounting.isRunning_iff _).mpr ((reachable.housed_synced programs).rules _ ?_)
    rw [← traced.sameRules]
    exact List.mem_map_of_mem held
  have diagnostics : s'.diagnostics = Report.collect (s.ticks + 1) s'.board.roster.running
      s'.board.world settling.fired := by rw [left]; rfl
  exact
    { claims := housed.claims
      rules := housed.rules
      logs := housed.logs
      errors := by
        rw [sameLimit]
        exact errors
      unsettled := by
        rw [sameLimit]
        exact accounting.unsettled
      reported := by
        intro id
        rw [diagnostics, program?_collect_ne_none_iff housed.logs records]
        obtain ⟨before, after, errorsEq, owned⟩ := errors
        constructor
        · rintro (running | ⟨entry, member, rfl⟩)
          · exact .inl running
          · rw [errorsEq, List.append_assoc, List.mem_append, List.mem_append] at member
            rcases member with first | engine | last
            · exact .inl (owned entry (List.mem_append_left _ first)).1
            · obtain ⟨unsettled, _, _, rfl⟩ := Settling.mem_complaints_iff.mp engine
              exact .inr ⟨unsettled, rfl⟩
            · exact .inl (owned entry (List.mem_append_right _ last)).1
        · rintro (running | ⟨unsettled, rfl⟩)
          · exact .inl running
          · obtain ⟨limit, _, complaints⟩ := accounting.unsettled unsettled
            refine .inr ⟨Settling.limitEntry limit, ?_, rfl⟩
            rw [errorsEq, complaints]
            exact List.mem_append_left _ (List.mem_append_right _ (List.mem_singleton.mpr rfl))
      sorted := by
        refine ⟨_, _, accounting.world, World.every_concat ?_,
          traced.contribution_dynamic s.limit⟩
        intro world member
        obtain ⟨launch, _, rfl⟩ := List.mem_map.mp member
        exact launch.contribution_static }

end Tick

theorem Reachable.ownership {s s' : Scheduler} (reachable : s.Reachable) {patience : Nat}
    {millis : Int64} {programs : List Program} {report : TickReport}
    (ticked : s.tick? patience millis programs = some (report, s')) :
    ∃ settling lineup,
      (s.opening (s.synced programs) millis programs).settle (s.ticks + 1) s.limit patience =
          some settling ∧
        report.settled = settling.settled ∧
        s.Ownership s' millis programs settling lineup := by
  obtain ⟨settling, lineup, settled, accounting⟩ := reachable.accounting ticked
  obtain ⟨_, settledToo, course⟩ := reachable.tick_course ticked
  obtain rfl := Option.some.inj (settled.symm.trans settledToo)
  have traced := traced_of_settle settled
  have synced := reachable.housed_synced programs
  have called := reachable.owned_call settled
  refine ⟨settling, lineup, settled, accounting.report.1, ?_⟩
  exact
    { owned := reachable.owned_tick ticked settled accounting
      world := accounting.world
      registered := fun launch member =>
        ⟨accounting.lined.contains_of_launch member,
          launch.program.registration_every launch.tick⟩
      called := fun call made =>
        ⟨(List.mem_append.mp made).elim (traced.calls call) (traced.close_calls call),
          (accounting.isRunning_iff _).mpr (called call made).2.1, (called call made).2.2⟩
      errorsOf := by
        intro launch member
        have registered := Launch.ownedBy_concat accounting.lined.distinct member
        rw [World.errorsOf_eq, accounting.world, World.ownedBy_append, registered]
        rfl
      stored := course.closing
      listed := by
        intro claim member
        have named : claim.source ∈ (Program.firstById programs).map Program.id := by
          rcases List.mem_append.mp member with held | claimed
          · exact synced.claims claim held
          · obtain ⟨call, inTrace, made⟩ := List.mem_flatMap.mp claimed
            have owned := called call (List.mem_append_left _ (List.mem_filter.mp inTrace).1)
            rw [(owned.2.2.claims claim made).1]
            exact owned.2.1
        obtain ⟨program, first, same⟩ := List.mem_map.mp named
        exact same ▸ List.mem_map_of_mem (Program.mem_of_mem_firstById first)
      renewed := by
        intro program listed stale
        have registered : (s.synced programs).world.ownedBy program.id =
            program.registration (s.ticks + 1) :=
          Board.sync_world_of_stale (Program.nodup_firstById programs) _
            (List.mem_filter.mpr ⟨listed, bne_iff_ne.mpr stale⟩)
        refine ⟨registered, fun call inTrace same => ?_⟩
        rw [← registered]
        exact List.mem_filter.mpr
          ⟨(called call (List.mem_append_left _ inTrace)).1, beq_iff_eq.mpr same⟩ }

/-- The empty board of a scheduler that has not ticked. -/
theorem owned_initial (settings : Settings) (baseFacts : BaseFacts) :
    Owned { settings, baseFacts } true where
  claims := nofun
  rules := nofun
  logs := nofun
  errors := ⟨[], [], rfl, nofun⟩
  unsettled := nofun
  reported := by
    intro id
    simp [Report.program?, isRunning]
  sorted := ⟨∅, ∅, rfl, World.every_empty, World.every_empty⟩

theorem Reachable.owned {s : Scheduler} (reachable : s.Reachable) : ∃ settled, s.Owned settled := by
  induction reachable with
  | initial settings baseFacts => exact ⟨true, owned_initial settings baseFacts⟩
  | supplied _ baseFacts ih =>
      obtain ⟨settled, owned⟩ := ih
      exact ⟨settled, { owned with }⟩
  | ticked reachable ticked ih =>
      obtain ⟨settling, _, _, _, ownership⟩ := reachable.ownership ticked
      exact ⟨settling.settled, ownership.owned⟩

/-- In every reachable state, everything has its owner and its place; and so do the things
that a tick makes and stores, whichever programs it runs and whatever they ask for. -/
theorem Reachable.world_is_owned {s : Scheduler} (reachable : s.Reachable) :
    (∃ settled, s.Owned settled) ∧
    ∀ patience millis programs report s', s.tick? patience millis programs = some (report, s') →
      ∃ settling lineup,
        (s.opening (s.synced programs) millis programs).settle (s.ticks + 1) s.limit patience =
            some settling ∧
          report.settled = settling.settled ∧
          s.Ownership s' millis programs settling lineup :=
  ⟨reachable.owned, fun _ _ _ _ _ ticked => reachable.ownership ticked⟩

/-- One of two programs is edited while the other stops, and the tick does not settle. Both
claim in the name of a third. -/
theorem world_is_owned_of_edited_program :
    let cool (name : String) : Action :=
      .assert { Claim.fact "@ is cool" [.text name] with source := ⟨"3"⟩, isDynamic := true }
    let isChild (child parent : Arg) : Claim :=
      { name := "@ is a child of @", args := [child, parent] }
    let bart : Program :=
      { id := ⟨"1"⟩, codeHash := ⟨"v1"⟩
        registrar := fun _ =>
          ⟨[ cool "Bart",
             .register (.each [{ name := "@ is cool", args := [.var "x"] }] fun _ _ =>
               ⟨[cool "Milhouse"], .done⟩) ], .done⟩ }
    let lisa : Program :=
      { id := ⟨"2"⟩, codeHash := ⟨"v1"⟩, registrar := fun _ => ⟨[cool "Lisa"], .done⟩ }
    let edited : Program :=
      { id := ⟨"1"⟩, codeHash := ⟨"v2"⟩
        registrar := fun _ =>
          ⟨[ cool "Nelson",
             .register (.each [isChild (.var "x") (.val (.text "Homer"))] fun _ _ => .idle),
             .register (.capture (isChild (.var "?x") (.var "p")) fun _ _ =>
               ⟨[.assert (.fact "@ is a child of @" [.text "Bart", .text "Homer"])],
                 .done⟩) ], .done⟩ }
    let s : Scheduler :=
      { settings := { maxSettleIterations := some 1 }, baseFacts := fun _ _ => [] }
    ∃ first s₁ second s₂ settling lineup,
      s.tick? 0 0 [bart, lisa] = some (first, s₁) ∧
        s₁.board.world.claims.map (fun claim => (claim.source.text, claim.isDynamic)) =
          [("1", false), ("2", false), ("1", true), ("1", true)] ∧
        s₁.tick? 0 1 [edited] = some (second, s₂) ∧ second.settled = false ∧
        s₂.board.world.claims.map (fun claim => (claim.source.text, claim.isDynamic)) =
          [("1", false), ("1", true)] ∧
        s₂.diagnostics.programs.keys.map ProgramId.text = ["1", "core"] ∧
        (["Bart", "Lisa", "Milhouse", "Nelson"].map fun name =>
          s₂.database.contains (.fact "@ is cool" [.text name])) = [false, false, false, true] ∧
        s₁.Ownership s₂ 1 [edited] settling lineup := by
  intro cool isChild bart lisa edited s
  have evaluated : ((s.tick? 0 0 [bart, lisa]).any fun (_, s₁) =>
      s₁.board.world.claims.map (fun claim => (claim.source.text, claim.isDynamic)) ==
          [("1", false), ("2", false), ("1", true), ("1", true)] &&
        (s₁.tick? 0 1 [edited]).any fun (second, s₂) =>
          (second.settled == false &&
          s₂.board.world.claims.map (fun claim => (claim.source.text, claim.isDynamic)) ==
            [("1", false), ("1", true)]) &&
          (s₂.diagnostics.programs.keys.map ProgramId.text == ["1", "core"] &&
          (["Bart", "Lisa", "Milhouse", "Nelson"].map fun name =>
            s₂.database.contains (.fact "@ is cool" [.text name])) ==
              [false, false, false, true])) = true := by
    decide +kernel
  obtain ⟨⟨first, s₁⟩, ticked₁, outcome⟩ := (Option.any_eq_true _ _).mp evaluated
  obtain ⟨claims₁, outcome⟩ := Bool.and_eq_true_iff.mp outcome
  obtain ⟨⟨second, s₂⟩, ticked₂, outcome⟩ := (Option.any_eq_true _ _).mp outcome
  obtain ⟨ended, shown⟩ := Bool.and_eq_true_iff.mp outcome
  obtain ⟨unsettled, claims₂⟩ := Bool.and_eq_true_iff.mp ended
  obtain ⟨reported, stored⟩ := Bool.and_eq_true_iff.mp shown
  have reachable : s₁.Reachable := .ticked (.initial s.settings s.baseFacts) ticked₁
  obtain ⟨settling, lineup, _, _, ownership⟩ :=
    reachable.world_is_owned.2 0 1 [edited] second s₂ ticked₂
  exact ⟨first, s₁, second, s₂, settling, lineup, ticked₁, eq_of_beq claims₁, ticked₂,
    eq_of_beq unsettled, eq_of_beq claims₂, eq_of_beq reported, eq_of_beq stored, ownership⟩

end Scheduler

end Blackboard
