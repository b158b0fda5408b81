import Blackboard.Proofs.World.Contribution
import Blackboard.Roster
import Mathlib.Data.List.Nodup

/-!
# Bringing a board in line

Of programs with distinct names, each is judged by how it stood to the board at
the outset: what is stopped or started before its turn goes by other names
(`Board.standing_update`). The changes are therefore those of the list as a
whole, and the world keeps what belongs to no program that stops or starts,
followed by the registrations in the order of the list (`Board.world_sync`).
-/

namespace Blackboard

namespace Program

/-- The first programs of each name have distinct names. -/
theorem nodup_firstById (programs : List Program) :
    ((firstById programs).map Program.id).Nodup := by
  induction programs with
  | nil => exact List.nodup_nil
  | cons program rest ih =>
      rw [firstById, List.map_cons, List.nodup_cons]
      constructor
      · rw [List.mem_map]
        rintro ⟨other, member, same⟩
        have differs := (List.mem_filter.mp member).2
        simp [same] at differs
      · exact ih.sublist (List.Sublist.map _ List.filter_sublist)

end Program

namespace Board

/-! ## One program -/

theorem standing_update (tick : Nat) (board : Board) {program other : Program}
    (distinct : program.id ≠ other.id) :
    (board.update tick program).standing other = board.standing other := by
  have roster : (board.update tick program).roster[other.id]? = board.roster[other.id]? := by
    unfold update start
    cases board.standing program <;> simp [Std.ExtTreeMap.getElem?_insert, distinct]
  unfold standing
  rw [roster]

theorem standing_stop (board : Board) {id : ProgramId} {program : Program}
    (distinct : id ≠ program.id) :
    (board.stop id).standing program = board.standing program := by
  unfold standing stop
  simp [Std.ExtTreeMap.getElem?_erase, distinct]

theorem contains_update (tick : Nat) (board : Board) (program : Program) (id : ProgramId) :
    (board.update tick program).roster.contains id = true ↔
      program.id = id ∨ board.roster.contains id = true := by
  unfold update start
  cases board.standing program <;> simp [Std.ExtTreeMap.contains_insert]

theorem update_of_current {tick : Nat} {board : Board} {program : Program}
    (current : board.standing program = .current) :
    (board.update tick program).world = board.world := by
  rw [update, current]

theorem update_of_stale {tick : Nat} {board : Board} {program : Program}
    (stale : board.standing program ≠ .current) :
    (board.update tick program).world =
      board.world.purge program.id ++ program.registration tick := by
  unfold update
  cases standingEq : board.standing program with
  | absent => rfl
  | outdated => rfl
  | current => exact absurd standingEq stale

/-! ## A list of programs -/

/-- The programs of a list that a board does not have running as they are: those
that are to start, also again. -/
def stale (board : Board) (programs : List Program) : List Program :=
  programs.filter fun program => board.standing program != .current

theorem stale_congr {board other : Board} {programs : List Program}
    (same : ∀ program ∈ programs, other.standing program = board.standing program) :
    other.stale programs = board.stale programs :=
  List.filter_congr fun program member => by rw [same program member]

theorem standing_update_of_nodup {program : Program} {rest : List Program}
    (nodup : ((program :: rest).map Program.id).Nodup) (tick : Nat) (board : Board) :
    ∀ other ∈ rest, (board.update tick program).standing other = board.standing other := by
  intro other member
  apply standing_update tick board
  intro same
  have fresh : program.id ∉ rest.map Program.id := (List.nodup_cons.mp nodup).1
  exact fresh (same ▸ List.mem_map_of_mem member)

/-- What programs that start do to the world: it loses what goes by their names
and gains what they register, in order. -/
theorem updateAll_world (tick : Nat) {programs : List Program}
    (nodup : (programs.map Program.id).Nodup) (board : Board) :
    (updateAll tick programs board).1.world =
      (board.world.filter fun owner _ =>
          !((board.stale programs).map Program.id).contains owner) ++
        World.concat ((board.stale programs).map fun program => program.registration tick) := by
  induction programs generalizing board with
  | nil => simp [updateAll, stale, World.filter]
  | cons program rest ih =>
      have unmoved := standing_update_of_nodup nodup tick board
      rw [updateAll]
      dsimp only
      rw [ih (List.nodup_cons.mp nodup).2, stale_congr unmoved]
      by_cases current : board.standing program = .current
      · have same : board.stale (program :: rest) = board.stale rest := by
          simp [stale, current]
        rw [update_of_current current, same]
      · have renewed : board.stale (program :: rest) = program :: board.stale rest := by
          simp [stale, current]
        have fresh : program.id ∉ (board.stale rest).map Program.id := fun member =>
          (List.nodup_cons.mp nodup).1 (List.map_subset _ (List.filter_subset_self _) member)
        have kept : (program.registration tick).Every fun owner _ =>
            (!((board.stale rest).map Program.id).contains owner) = true :=
          (program.registration_every tick).mono fun owner _ owned => by
            simpa [owned.1] using fresh
        rw [update_of_stale current, renewed, World.filter_append, World.filter_eq_self kept,
          World.purge, World.filter_filter, List.map_cons, List.map_cons, World.concat_cons,
          World.append_assoc]
        congr 2
        funext owner isDynamic
        rw [List.contains_cons, Bool.not_or]
        rfl

/-- Which programs start, and which start again. -/
theorem updateAll_changes (tick : Nat) {programs : List Program}
    (nodup : (programs.map Program.id).Nodup) (board : Board) :
    (updateAll tick programs board).2 =
      { started := (programs.filter (board.standing · == .absent)).map Program.id
        restarted := (programs.filter (board.standing · == .outdated)).map Program.id } := by
  induction programs generalizing board with
  | nil => rfl
  | cons program rest ih =>
      have unmoved := standing_update_of_nodup nodup tick board
      have congr (standing : Standing) :
          rest.filter ((board.update tick program).standing · == standing) =
            rest.filter (board.standing · == standing) :=
        List.filter_congr fun other member => by rw [unmoved other member]
      rw [updateAll]
      dsimp only
      rw [ih (List.nodup_cons.mp nodup).2, congr, congr]
      cases standingEq : board.standing program <;> simp [standingEq]

theorem contains_updateAll (tick : Nat) (programs : List Program) (board : Board)
    (id : ProgramId) :
    (updateAll tick programs board).1.roster.contains id = true ↔
      id ∈ programs.map Program.id ∨ board.roster.contains id = true := by
  induction programs generalizing board with
  | nil => simp [updateAll]
  | cons program rest ih =>
      rw [updateAll]
      dsimp only
      rw [ih, contains_update, List.map_cons, List.mem_cons]
      tauto

/-! ## Stopping -/

theorem world_foldl_stop (ids : List ProgramId) (board : Board) :
    (ids.foldl stop board).world = board.world.filter fun owner _ => !ids.contains owner := by
  induction ids generalizing board with
  | nil => simp [World.filter]
  | cons id rest ih =>
      rw [List.foldl_cons, ih, stop, World.purge, World.filter_filter]
      congr 1
      funext owner isDynamic
      rw [List.contains_cons, Bool.not_or]
      rfl

theorem standing_foldl_stop {ids : List ProgramId} {program : Program}
    (listed : program.id ∉ ids) (board : Board) :
    (ids.foldl stop board).standing program = board.standing program := by
  induction ids generalizing board with
  | nil => rfl
  | cons id rest ih =>
      rw [List.mem_cons, not_or] at listed
      rw [List.foldl_cons, ih listed.2, standing_stop board (Ne.symm listed.1)]

theorem contains_foldl_stop (ids : List ProgramId) (board : Board) (id : ProgramId) :
    (ids.foldl stop board).roster.contains id = true ↔
      id ∉ ids ∧ board.roster.contains id = true := by
  induction ids generalizing board with
  | nil => simp
  | cons first rest ih =>
      rw [List.foldl_cons, ih, stop, Std.ExtTreeMap.contains_erase, List.mem_cons]
      simp
      tauto

theorem mem_missingFrom_iff (board : Board) (programs : List Program) (id : ProgramId) :
    id ∈ board.missingFrom programs ↔
      board.roster.contains id = true ∧ id ∉ programs.map Program.id := by
  simp [missingFrom]

/-! ## A board in line with a list -/

section Sync

variable {programs : List Program} (nodup : (programs.map Program.id).Nodup)

theorem standing_of_stopped (board : Board) {program : Program} (listed : program ∈ programs) :
    ((board.missingFrom programs).foldl stop board).standing program = board.standing program := by
  refine standing_foldl_stop (fun missing => ?_) board
  exact ((mem_missingFrom_iff board programs program.id).mp missing).2 (List.mem_map_of_mem listed)

include nodup in
/-- What stops, starts and starts again is read off the board and the list. -/
theorem sync_changes (tick : Nat) (board : Board) :
    (board.sync tick programs).2 =
      { started := (programs.filter (board.standing · == .absent)).map Program.id
        restarted := (programs.filter (board.standing · == .outdated)).map Program.id
        stopped := board.missingFrom programs } := by
  have congr (standing : Standing) :
      programs.filter (((board.missingFrom programs).foldl stop board).standing · == standing) =
        programs.filter (board.standing · == standing) :=
    List.filter_congr fun program listed => by rw [standing_of_stopped board listed]
  unfold sync
  dsimp only
  rw [updateAll_changes tick nodup, congr, congr]

theorem standing_eq_absent_iff (board : Board) (program : Program) :
    board.standing program = .absent ↔ board.roster.contains program.id = false := by
  rw [Std.ExtTreeMap.contains_eq_isSome_getElem?]
  unfold standing
  cases board.roster[program.id]? with
  | none => simp
  | some run => by_cases same : run.codeHash = program.codeHash <;> simp [same]

theorem standing_eq_outdated_iff (board : Board) (program : Program) :
    board.standing program = .outdated ↔
      (board.roster[program.id]?).any (·.codeHash != program.codeHash) = true := by
  unfold standing
  cases board.roster[program.id]? with
  | none => simp
  | some run => by_cases same : run.codeHash = program.codeHash <;> simp [same]

theorem standing_eq_current_iff (board : Board) (program : Program) :
    board.standing program = .current ↔
      (board.roster[program.id]?).any (·.codeHash == program.codeHash) = true := by
  unfold standing
  cases board.roster[program.id]? with
  | none => simp
  | some run => by_cases same : run.codeHash = program.codeHash <;> simp [same]

include nodup in
/-- A program that starts was not running. -/
theorem not_running_of_started {tick : Nat} {board : Board} {id : ProgramId}
    (started : id ∈ (board.sync tick programs).2.started) : board.roster.contains id = false := by
  rw [sync_changes nodup] at started
  obtain ⟨program, member, rfl⟩ := List.mem_map.mp started
  exact (standing_eq_absent_iff board program).mp (beq_iff_eq.mp (List.mem_filter.mp member).2)

include nodup in
/-- A program that starts again was running. -/
theorem running_of_restarted {tick : Nat} {board : Board} {id : ProgramId}
    (restarted : id ∈ (board.sync tick programs).2.restarted) :
    board.roster.contains id = true := by
  rw [sync_changes nodup] at restarted
  obtain ⟨program, member, rfl⟩ := List.mem_map.mp restarted
  have outdated : board.standing program = .outdated :=
    beq_iff_eq.mp (List.mem_filter.mp member).2
  by_contra absent
  rw [Bool.not_eq_true, ← standing_eq_absent_iff, outdated] at absent
  cases absent

include nodup in
theorem mem_stale_ids_iff (tick : Nat) (board : Board) (id : ProgramId) :
    id ∈ (board.stale programs).map Program.id ↔
      id ∈ (board.sync tick programs).2.started ∨
        id ∈ (board.sync tick programs).2.restarted := by
  rw [sync_changes nodup]
  simp only [stale, List.mem_map, List.mem_filter]
  constructor
  · rintro ⟨program, ⟨listed, stale⟩, rfl⟩
    cases standingEq : board.standing program with
    | absent => exact .inl ⟨program, ⟨listed, by simp [standingEq]⟩, rfl⟩
    | outdated => exact .inr ⟨program, ⟨listed, by simp [standingEq]⟩, rfl⟩
    | current => simp [standingEq] at stale
  · rintro (⟨program, ⟨listed, standingEq⟩, rfl⟩ | ⟨program, ⟨listed, standingEq⟩, rfl⟩)
    all_goals
      rw [beq_iff_eq] at standingEq
      exact ⟨program, ⟨listed, by simp [standingEq]⟩, rfl⟩

include nodup in
/-- The programs that register are those that start, also again. -/
theorem stale_eq_filter_changes (tick : Nat) (board : Board) :
    board.stale programs = programs.filter fun program =>
      (board.sync tick programs).2.started.contains program.id ||
        (board.sync tick programs).2.restarted.contains program.id := by
  apply List.filter_congr
  intro program listed
  rw [Bool.eq_iff_iff, Bool.or_eq_true, List.contains_iff_mem, List.contains_iff_mem,
    ← mem_stale_ids_iff nodup]
  constructor
  · intro stale
    exact List.mem_map_of_mem (List.mem_filter.mpr ⟨listed, stale⟩)
  · intro member
    obtain ⟨other, otherStale, same⟩ := List.mem_map.mp member
    obtain ⟨otherListed, stale⟩ := List.mem_filter.mp otherStale
    obtain rfl := List.inj_on_of_nodup_map nodup otherListed listed same
    exact stale

include nodup in
/-- The world keeps what goes by the name of no program that stops, starts or
starts again, and is followed by what those that start register. -/
theorem world_sync (tick : Nat) (board : Board) :
    (board.sync tick programs).1.world =
      (board.world.filter fun owner _ =>
          !(board.missingFrom programs).contains owner &&
            !((board.stale programs).map Program.id).contains owner) ++
        World.concat ((board.stale programs).map fun program => program.registration tick) := by
  have unmoved : ((board.missingFrom programs).foldl stop board).stale programs =
      board.stale programs :=
    stale_congr fun program listed => standing_of_stopped board listed
  unfold sync
  dsimp only
  rw [updateAll_world tick nodup, unmoved, world_foldl_stop, World.filter_filter]

/-- The running programs are the listed ones. -/
theorem contains_sync (tick : Nat) (board : Board) (id : ProgramId) :
    (board.sync tick programs).1.roster.contains id = true ↔ id ∈ programs.map Program.id := by
  unfold sync
  dsimp only
  rw [contains_updateAll, contains_foldl_stop, mem_missingFrom_iff]
  tauto

end Sync

end Board

end Blackboard
