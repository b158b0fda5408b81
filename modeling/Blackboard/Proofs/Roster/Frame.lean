import Blackboard.Proofs.Roster.Lineup

/-!
# What bringing a board in line leaves alone

The programs that are running as they are listed keep all that they own, in order
(`Board.sync_world_of_unchanged`). One that starts, also again, owns what it registers then,
and nothing else (`Board.sync_world_of_stale`), and one that stops owns nothing.
-/

namespace Blackboard

namespace World

/-- The entries that a program owns. -/
def ownedBy (world : World) (id : ProgramId) : World := world.filter fun owner _ => owner == id

theorem errorsOf_eq (world : World) (id : ProgramId) :
    world.errorsOf id = (world.ownedBy id).errors := rfl

theorem ownedBy_append (first second : World) (id : ProgramId) :
    (first ++ second).ownedBy id = first.ownedBy id ++ second.ownedBy id :=
  filter_append first second _

theorem ownedBy_every (world : World) (id : ProgramId) :
    (world.ownedBy id).Every fun owner _ => owner = id :=
  (world.filter_every _).mono fun _ _ kept => beq_iff_eq.mp kept

/-- A condition on owners may be tested before or after the entries of one are picked. -/
theorem ownedBy_filter (world : World) (keep : ProgramId → Bool) (id : ProgramId) :
    (world.filter fun owner _ => keep owner).ownedBy id =
      (world.ownedBy id).filter fun owner _ => keep owner := by
  simp only [ownedBy, filter_filter, Bool.and_comm]

/-- A program whose name is passed by a condition on owners keeps its entries. -/
theorem ownedBy_filter_eq_self (world : World) {keep : ProgramId → Bool} {id : ProgramId}
    (kept : keep id = true) :
    (world.filter fun owner _ => keep owner).ownedBy id = world.ownedBy id := by
  rw [ownedBy_filter]
  exact filter_eq_self ((world.ownedBy_every id).mono fun _ _ same => same ▸ kept)

theorem ownedBy_filter_eq_empty (world : World) {keep : ProgramId → Bool} {id : ProgramId}
    (dropped : keep id = false) : (world.filter fun owner _ => keep owner).ownedBy id = ∅ := by
  rw [ownedBy_filter]
  exact filter_eq_empty ((world.ownedBy_every id).mono fun _ _ same => same ▸ dropped)

end World

/-- Of what programs with distinct names have registered, each owns its own registration. -/
theorem Launch.ownedBy_concat {lineup : List Launch}
    (distinct : (lineup.map fun launch => launch.program.id).Nodup) {launch : Launch}
    (member : launch ∈ lineup) :
    (World.concat (lineup.map contribution)).ownedBy launch.program.id = launch.contribution := by
  rw [World.ownedBy, World.filter_concat_map (fun other => other.program.id) contribution
      (· == launch.program.id) fun other _ => other.contribution_owned,
    Program.filter_name_eq (fun other => other.program.id) distinct member, List.map_singleton,
    World.concat_cons, World.concat_nil, World.append_empty]

namespace Board

section Frame

variable {programs : List Program} (nodup : (programs.map Program.id).Nodup) (tick : Nat)
  {board : Board} {program : Program}

include nodup in
/-- The entries of a program when a board was brought in line: those that are kept, and
those that it registers if it starts. -/
theorem sync_ownedBy (board : Board) (id : ProgramId) :
    (board.sync tick programs).1.world.ownedBy id =
      (board.world.filter fun owner _ =>
          !(board.missingFrom programs).contains owner &&
            !((board.stale programs).map Program.id).contains owner).ownedBy id ++
        World.concat (((board.stale programs).filter fun program => program.id == id).map
          fun program => program.registration tick) := by
  rw [world_sync nodup, World.ownedBy_append]
  congr 1
  exact World.filter_concat_map Program.id (fun program => program.registration tick) (· == id)
    fun program _ => (program.registration_every tick).mono fun _ _ owned => owned.1

theorem stale_nodup (nodup : (programs.map Program.id).Nodup) (board : Board) :
    ((board.stale programs).map Program.id).Nodup :=
  nodup.sublist (List.filter_sublist.map _)

/-! ## Programs that start, and programs that stop -/

include nodup in
/-- A program that starts, also again, owns what it registers. -/
theorem sync_world_of_stale (stale : program ∈ board.stale programs) :
    (board.sync tick programs).1.world.ownedBy program.id = program.registration tick := by
  have named : ((board.stale programs).map Program.id).contains program.id = true :=
    List.contains_iff_mem.mpr (List.mem_map_of_mem stale)
  have starts := Program.filter_name_eq Program.id (stale_nodup nodup board) stale
  rw [sync_ownedBy nodup, World.ownedBy_filter_eq_empty _ (by rw [named]; exact Bool.and_false _),
    starts, World.empty_append, List.map_singleton, World.concat_cons, World.concat_nil,
    World.append_empty]

include nodup in
/-- Nothing is left of programs that stop. -/
theorem sync_world_of_missing {id : ProgramId} (missing : id ∈ board.missingFrom programs) :
    (board.sync tick programs).1.world.ownedBy id = ∅ := by
  have unlisted : id ∉ programs.map Program.id :=
    ((mem_missingFrom_iff board programs id).mp missing).2
  have noneStarts : ((board.stale programs).filter fun program => program.id == id) = [] :=
    List.filter_eq_nil_iff.mpr fun program stale same =>
      unlisted (beq_iff_eq.mp same ▸ List.mem_map_of_mem (List.mem_filter.mp stale).1)
  have dropped : (!(board.missingFrom programs).contains id &&
      !((board.stale programs).map Program.id).contains id) = false := by
    rw [List.contains_iff_mem.mpr missing, Bool.not_true, Bool.false_and]
  rw [sync_ownedBy nodup, World.ownedBy_filter_eq_empty _ dropped, noneStarts]
  rfl

/-! ## Programs that go on -/

/-- The programs of a list that are running with the source text that it gives. -/
def unchanged (board : Board) (programs : List Program) : List ProgramId :=
  (programs.filter fun program =>
    (board.roster[program.id]?).any (·.codeHash == program.codeHash)).map Program.id

include nodup in
/-- A program that is running as it is listed neither stops nor starts. -/
theorem not_changed_of_unchanged {id : ProgramId} (same : id ∈ board.unchanged programs) :
    id ∉ board.missingFrom programs ∧ id ∉ (board.stale programs).map Program.id := by
  obtain ⟨program, member, rfl⟩ := List.mem_map.mp same
  obtain ⟨listed, running⟩ := List.mem_filter.mp member
  have current := (standing_eq_current_iff board program).mpr running
  constructor
  · intro missing
    exact ((mem_missingFrom_iff board programs program.id).mp missing).2
      (List.mem_map_of_mem listed)
  · intro starts
    obtain ⟨other, stale, sameName⟩ := List.mem_map.mp starts
    obtain ⟨otherListed, differs⟩ := List.mem_filter.mp stale
    obtain rfl := List.inj_on_of_nodup_map nodup otherListed listed sameName
    simp [current] at differs

include nodup in
/-- The entries of the programs that go on are kept, in order. -/
theorem sync_world_of_unchanged (board : Board) :
    ((board.sync tick programs).1.world.filter fun owner _ =>
        (board.unchanged programs).contains owner) =
      board.world.filter fun owner _ => (board.unchanged programs).contains owner := by
  have kept (owner : ProgramId) :
      ((!(board.missingFrom programs).contains owner &&
          !((board.stale programs).map Program.id).contains owner) &&
        (board.unchanged programs).contains owner) =
      (board.unchanged programs).contains owner := by
    cases same : (board.unchanged programs).contains owner with
    | false => exact Bool.and_false _
    | true =>
        have untouched := not_changed_of_unchanged nodup (List.contains_iff_mem.mp same)
        simp [untouched.1, untouched.2]
  have registered : (World.concat ((board.stale programs).map fun program =>
      program.registration tick)).Every fun owner _ =>
        (board.unchanged programs).contains owner = false := by
    apply World.every_concat
    intro world member
    obtain ⟨program, stale, rfl⟩ := List.mem_map.mp member
    refine (program.registration_every tick).mono ?_
    rintro _ _ ⟨rfl, _⟩
    rw [← Bool.not_eq_true, List.contains_iff_mem]
    exact fun same => (not_changed_of_unchanged nodup same).2 (List.mem_map_of_mem stale)
  rw [world_sync nodup, World.filter_append, World.filter_filter,
    World.filter_eq_empty registered, World.append_empty]
  simp only [kept]

include nodup in
/-- A program that goes on keeps what it owns. -/
theorem sync_ownedBy_of_unchanged {id : ProgramId} (same : id ∈ board.unchanged programs) :
    (board.sync tick programs).1.world.ownedBy id = board.world.ownedBy id := by
  have named : (board.unchanged programs).contains id = true := List.contains_iff_mem.mpr same
  calc
    (board.sync tick programs).1.world.ownedBy id
    _ = ((board.sync tick programs).1.world.filter fun owner _ =>
          (board.unchanged programs).contains owner).ownedBy id :=
      (World.ownedBy_filter_eq_self _ named).symm
    _ = (board.world.filter fun owner _ =>
          (board.unchanged programs).contains owner).ownedBy id := by
      rw [sync_world_of_unchanged nodup]
    _ = board.world.ownedBy id := World.ownedBy_filter_eq_self _ named

end Frame

/-- A program that is listed once more in the version in which it runs is not started, and
keeps what it owns. -/
theorem Lined.retains {programs next : List Program} {lineup : List Launch} {board : Board}
    (lined : board.Lined programs lineup) (nodup : (next.map Program.id).Nodup) (tick : Nat)
    {program listed : Program} (relisted : program ∈ next) (inList : listed ∈ programs)
    (same : listed.SameVersion program) :
    program.id ∉ (board.sync tick next).2.started ∧
      program.id ∉ (board.sync tick next).2.restarted ∧
      (board.sync tick next).1.world.ownedBy program.id = board.world.ownedBy program.id := by
  have current : board.standing program = .current := by
    obtain ⟨launch, member, version⟩ := lined.launched listed inList
    exact (lined.standing_eq_current_iff program).mpr
      ⟨launch, member, same.symm.trans version⟩
  have goesOn : program.id ∈ board.unchanged next := List.mem_map_of_mem
    (List.mem_filter.mpr ⟨relisted, (Board.standing_eq_current_iff board program).mp current⟩)
  have notStale := (not_changed_of_unchanged nodup goesOn).2
  rw [mem_stale_ids_iff nodup tick, not_or] at notStale
  exact ⟨notStale.1, notStale.2, sync_ownedBy_of_unchanged nodup tick goesOn⟩

end Board

end Blackboard
