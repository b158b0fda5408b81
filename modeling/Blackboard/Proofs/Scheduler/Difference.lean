import Blackboard.Proofs.Roster.Frame
import Blackboard.Proofs.Scheduler.Delay

/-!
# What a list of programs changes

Bringing a board in line with a list changes what differs between them and nothing else
(`Board.Difference`). Each name has one of four fates: it is running and not listed, listed and
not running, running with another source text, or running as it is listed. The first three are
reported, each in its list, and the fourth is left alone with all that it owns
(`Scheduler.Reachable.lists_change_difference`). Of programs that share a name, a tick sees the
first only.
-/

namespace Blackboard

namespace Program

/-! ## The first programs of each name -/

/-- A program behind a list counts unless the list names it. -/
theorem firstById_concat (programs : List Program) (program : Program) :
    firstById (programs ++ [program]) =
      firstById programs ++ if program.id ∈ programs.map Program.id then [] else [program] := by
  induction programs with
  | nil => rfl
  | cons first rest ih =>
      rw [List.cons_append, firstById, ih, List.filter_append, firstById, List.cons_append,
        List.map_cons]
      congr 2
      by_cases further : program.id ∈ rest.map Program.id
      · rw [if_pos further, if_pos (List.mem_cons_of_mem _ further), List.filter_nil]
      · by_cases same : program.id = first.id
        · simp [same]
        · simp [further, same]

/-- A list in which no two programs share a name counts as it is. -/
theorem firstById_eq_self {programs : List Program} (nodup : (programs.map Program.id).Nodup) :
    firstById programs = programs := by
  induction programs with
  | nil => rfl
  | cons program rest ih =>
      obtain ⟨fresh, restNodup⟩ := List.nodup_cons.mp nodup
      rw [firstById, ih restNodup, List.filter_eq_self.mpr]
      intro other listed
      rw [bne_iff_ne]
      intro same
      exact fresh (same ▸ List.mem_map_of_mem listed)

end Program

namespace Board

/-- A board is in line with a list if it runs the listed programs, each with the code hash and
the debugger that the list has for it, and no others. -/
def InLine (board : Board) (programs : List Program) : Prop :=
  ∀ id run, board.roster[id]? = some run ↔
    ∃ program ∈ programs, program.id = id ∧
      run = { codeHash := program.codeHash, debugUrl := program.debugUrl }

/-- A board before and after it was brought in line with a list of programs, and what is said
to have changed. -/
structure Difference (tick : Nat) (programs : List Program) (board after : Board)
    (changes : Changes) : Prop where
  /-- The programs that run and are not listed stop, in ascending order. -/
  stopped : ∀ id, id ∈ changes.stopped ↔
    board.roster.contains id = true ∧ id ∉ programs.map Program.id
  ascending : changes.stopped.Pairwise fun first second => compare first second = .lt
  /-- The programs that do not run start, in the order of the list. -/
  started : changes.started =
    (programs.filter fun program => !board.roster.contains program.id).map Program.id
  /-- The programs that run with another source text start again, in the order of the list. -/
  restarted : changes.restarted = (programs.filter fun program =>
    (board.roster[program.id]?).any (·.codeHash != program.codeHash)).map Program.id
  untouched : ∀ id ∈ board.unchanged programs,
    id ∉ changes.stopped ∧ id ∉ changes.started ∧ id ∉ changes.restarted
  /-- The listed programs run, each as the list has it, and no others. -/
  roster : after.InLine programs
  /-- The entries of the unchanged programs are those of before, in the same order, whoever
  of these programs owns them. -/
  kept : (after.world.filter fun owner _ => (board.unchanged programs).contains owner) =
    board.world.filter fun owner _ => (board.unchanged programs).contains owner
  /-- Nothing is left of programs that stop. -/
  gone : ∀ id ∈ changes.stopped, after.world.ownedBy id = ∅
  /-- Programs that start, also again, own what they register and nothing else. -/
  renewed : ∀ program ∈ programs, program.id ∈ changes.started ++ changes.restarted →
    after.world.ownedBy program.id = program.registration tick
  /-- The registrations of the programs that start, also again, come last, in the order of
  the list. -/
  world : after.world = board.world.kept changes ++ .registered tick programs changes
  /-- The same list once more changes nothing. -/
  settled : ∀ later, after.sync later programs = (after, {})

/-! ## The same list once more -/

section Sync

variable {programs : List Program} (nodup : (programs.map Program.id).Nodup) (tick : Nat)

include nodup in
theorem inLine_sync (board : Board) : (board.sync tick programs).1.InLine programs := by
  intro id run
  rw [getElem?_sync nodup, Option.map_eq_some_iff]
  constructor
  · rintro ⟨program, found, rfl⟩
    exact ⟨program, List.mem_of_find?_eq_some found, by simpa using List.find?_some found, rfl⟩
  · rintro ⟨program, listed, rfl, rfl⟩
    exact ⟨program, Program.find?_id_eq_some nodup listed, rfl⟩

theorem InLine.standing {board : Board} (inLine : board.InLine programs) {program : Program}
    (listed : program ∈ programs) : board.standing program = .current := by
  have running : board.roster[program.id]? = some program.run :=
    (inLine program.id program.run).mpr ⟨program, listed, rfl, rfl⟩
  rw [standing_eq_current_iff, running, Option.any_some]
  exact beq_self_eq_true program.codeHash

theorem InLine.missingFrom {board : Board} (inLine : board.InLine programs) :
    board.missingFrom programs = [] := by
  rw [List.eq_nil_iff_forall_not_mem]
  intro id missing
  obtain ⟨running, unlisted⟩ := (mem_missingFrom_iff board programs id).mp missing
  rw [Std.ExtTreeMap.contains_eq_isSome_getElem?, Option.isSome_iff_exists] at running
  obtain ⟨run, running⟩ := running
  obtain ⟨program, listed, rfl, _⟩ := (inLine id run).mp running
  exact unlisted (List.mem_map_of_mem listed)

theorem InLine.stale {board : Board} (inLine : board.InLine programs) :
    board.stale programs = [] :=
  List.filter_eq_nil_iff.mpr fun program listed => by simp [inLine.standing listed]

include nodup in
/-- A board that is in line with a list is left as it is. -/
theorem InLine.sync {board : Board} (inLine : board.InLine programs) :
    board.sync tick programs = (board, {}) := by
  -- both rosters hold what the list says, name by name
  have roster : (board.sync tick programs).1.roster = board.roster := by
    apply Std.ExtTreeMap.ext_getElem?
    intro id
    apply Option.ext
    intro run
    rw [inLine_sync nodup tick board id run, inLine id run]
  have world : (board.sync tick programs).1.world = board.world := by
    rw [world_sync nodup, inLine.missingFrom, inLine.stale, List.map_nil, List.map_nil,
      World.concat_nil, World.append_empty]
    exact board.world.filter_true
  have none (standing : Standing) (differs : standing ≠ .current) :
      programs.filter (board.standing · == standing) = [] :=
    List.filter_eq_nil_iff.mpr fun program listed => by
      simp [inLine.standing listed, differs.symm]
  have changes : (board.sync tick programs).2 = {} := by
    rw [sync_changes nodup, none .absent nofun, none .outdated nofun, inLine.missingFrom]
    rfl
  exact Prod.ext (congrArg₂ Board.mk roster world) changes

/-! ## What changes -/

include nodup in
/-- A board whose entries belong to running programs changes by the difference between the list
and what is running. -/
theorem Housed.difference {board : Board} (housed : board.Housed) :
    board.Difference tick programs (board.sync tick programs).1 (board.sync tick programs).2 := by
  have changes := sync_changes nodup tick board
  have stoppedEq : (board.sync tick programs).2.stopped = board.missingFrom programs := by
    rw [changes]
  exact
    { stopped := fun id => by rw [stoppedEq, mem_missingFrom_iff]
      ascending := by
        rw [stoppedEq]
        exact Std.ExtTreeMap.ordered_keys.filter _
      started := by
        rw [changes]
        dsimp only
        congr 1
        refine List.filter_congr fun program _ => ?_
        rw [Bool.eq_iff_iff, beq_iff_eq, standing_eq_absent_iff, Bool.not_eq_true']
      restarted := by
        rw [changes]
        dsimp only
        congr 1
        refine List.filter_congr fun program _ => ?_
        rw [Bool.eq_iff_iff, beq_iff_eq, standing_eq_outdated_iff]
      untouched := by
        intro id same
        obtain ⟨running, notStale⟩ := not_changed_of_unchanged nodup same
        rw [mem_stale_ids_iff nodup tick, not_or] at notStale
        exact ⟨stoppedEq ▸ running, notStale⟩
      roster := inLine_sync nodup tick board
      kept := sync_world_of_unchanged nodup tick board
      gone := fun id stopped => sync_world_of_missing nodup tick (stoppedEq ▸ stopped)
      renewed := by
        intro program listed starts
        rw [List.mem_append, ← mem_stale_ids_iff nodup tick] at starts
        obtain ⟨other, stale, same⟩ := List.mem_map.mp starts
        obtain rfl := List.inj_on_of_nodup_map nodup (List.mem_filter.mp stale).1 listed same
        exact sync_world_of_stale nodup tick stale
      world := housed.world_sync nodup tick
      settled := fun later => InLine.sync nodup later (inLine_sync nodup tick board) }

end Sync

end Board

namespace Scheduler

/-- In every reachable state, a list in which no two programs share a name changes the board by
the difference between the two. In a list in which programs share a name, a tick sees the first
of each name: those of which no other is listed before. -/
theorem Reachable.lists_change_difference {s : Scheduler} (reachable : s.Reachable) :
    (∀ tick programs, (programs.map Program.id).Nodup →
      s.board.Difference tick programs (s.board.sync tick programs).1
        (s.board.sync tick programs).2) ∧
    (∀ programs program, Program.firstById (programs ++ [program]) =
      Program.firstById programs ++
        if program.id ∈ programs.map Program.id then [] else [program]) ∧
    ∀ patience millis programs,
      s.tick? patience millis programs = s.tick? patience millis (Program.firstById programs) := by
  refine ⟨fun tick programs nodup => reachable.housed.difference nodup tick,
    Program.firstById_concat, fun patience millis programs => ?_⟩
  have once : Program.firstById (Program.firstById programs) = Program.firstById programs :=
    Program.firstById_eq_self (Program.nodup_firstById programs)
  have synced : s.synced (Program.firstById programs) = s.synced programs := by
    rw [Scheduler.synced, once, Scheduler.synced]
  have opening (board : Board) :
      s.opening board millis (Program.firstById programs) = s.opening board millis programs := by
    rw [Scheduler.opening, Scheduler.initialFacts, once]
    rfl
  rw [Scheduler.tick?, Scheduler.tick?, synced, opening]

/-- A list in which one program is edited, one has another debugger, one is new and fails as it
registers, and one that was running is missing. The claims of callbacks are kept or go with
their programs. -/
theorem lists_change_difference_of_edited_program :
    let cool (name : String) : Action := .assert (.fact "@ is cool" [.text name])
    let echo (name : String) : Action :=
      .register (.each [{ name := "@ is cool", args := [.val (.text name)] }] fun _ _ =>
        ⟨[.assert (.fact "@ was cool" [.text name])], .done⟩)
    let program (id version name : String) : Program :=
      { id := ⟨id⟩, codeHash := ⟨version⟩
        registrar := fun _ => ⟨[cool name, echo name], .done⟩ }
    let broken : Program :=
      { id := ⟨"0"⟩, codeHash := ⟨"v1"⟩
        registrar := fun _ => ⟨[cool "Nelson"], .failed (.callback "parse error")⟩ }
    let list := [program "3" "v2" "Milhouse", broken,
      { program "1" "v1" "Bart" with debugUrl := some "http://paper-1.local/debug" }]
    let shown (claim : Claim) := (claim.source.text, claim.name, claim.isDynamic)
    let s : Scheduler := { settings := {}, baseFacts := fun _ _ => [] }
    ∃ report s₁,
      s.tick? 1 0 [program "1" "v1" "Bart", program "2" "v1" "Lisa", program "3" "v1" "Maggie"] =
          some (report, s₁) ∧
        s₁.board.world.claims.map shown =
          [("1", "@ is cool", false), ("2", "@ is cool", false), ("3", "@ is cool", false),
            ("1", "@ was cool", true), ("2", "@ was cool", true), ("3", "@ was cool", true)] ∧
        (s₁.board.sync 2 list).2 =
          { started := [⟨"0"⟩], restarted := [⟨"3"⟩], stopped := [⟨"2"⟩] } ∧
        (s₁.board.sync 2 list).1.roster.toList.map
            (fun (id, run) => (id.text, run.codeHash.text, run.debugUrl)) =
          [("0", "v1", none), ("1", "v1", some "http://paper-1.local/debug"),
            ("3", "v2", none)] ∧
        (s₁.board.sync 2 list).1.world.claims.map shown =
          [("1", "@ is cool", false), ("1", "@ was cool", true), ("3", "@ is cool", false),
            ("0", "@ is cool", false)] ∧
        s₁.board.Difference 2 list (s₁.board.sync 2 list).1 (s₁.board.sync 2 list).2 := by
  intro cool echo program broken list shown s
  have evaluated : ((s.tick? 1 0
      [program "1" "v1" "Bart", program "2" "v1" "Lisa", program "3" "v1" "Maggie"]).any
        fun (_, s₁) =>
          s₁.board.world.claims.map shown ==
              [("1", "@ is cool", false), ("2", "@ is cool", false), ("3", "@ is cool", false),
                ("1", "@ was cool", true), ("2", "@ was cool", true), ("3", "@ was cool", true)] &&
            (decide ((s₁.board.sync 2 list).2 =
                { started := [⟨"0"⟩], restarted := [⟨"3"⟩], stopped := [⟨"2"⟩] }) &&
              ((s₁.board.sync 2 list).1.roster.toList.map
                  (fun (id, run) => (id.text, run.codeHash.text, run.debugUrl)) ==
                [("0", "v1", none), ("1", "v1", some "http://paper-1.local/debug"),
                  ("3", "v2", none)] &&
                (s₁.board.sync 2 list).1.world.claims.map shown ==
                  [("1", "@ is cool", false), ("1", "@ was cool", true), ("3", "@ is cool", false),
                    ("0", "@ is cool", false)]))) = true := by
    decide +kernel
  obtain ⟨⟨report, s₁⟩, ticked, outcome⟩ := (Option.any_eq_true _ _).mp evaluated
  obtain ⟨before, outcome⟩ := Bool.and_eq_true_iff.mp outcome
  obtain ⟨changes, outcome⟩ := Bool.and_eq_true_iff.mp outcome
  obtain ⟨roster, after⟩ := Bool.and_eq_true_iff.mp outcome
  have reachable : s₁.Reachable := .ticked (.initial s.settings s.baseFacts) ticked
  have nodup : (list.map Program.id).Nodup := by decide +kernel
  exact ⟨report, s₁, ticked, eq_of_beq before, of_decide_eq_true changes, eq_of_beq roster,
    eq_of_beq after, reachable.lists_change_difference.1 2 list nodup⟩

end Scheduler

end Blackboard
