import Blackboard.Proofs.Roster.Sync

/-!
# Who runs, and what they registered

The roster of a board that was brought in line with a list of programs holds what the
list says of them (`Board.getElem?_sync`). The static entries of its world are those that
the running programs registered when they were last started: one block for each of them, in
the order in which they were started (`Board.Lined.sync`).
-/

namespace Blackboard

namespace Program

/-- Two programs go by one name and have the same source text. -/
def SameVersion (first second : Program) : Prop :=
  first.id = second.id ∧ first.codeHash = second.codeHash

instance (first second : Program) : Decidable (first.SameVersion second) :=
  inferInstanceAs (Decidable (_ ∧ _))

namespace SameVersion

theorem refl (program : Program) : program.SameVersion program := ⟨rfl, rfl⟩

theorem symm {first second : Program} (same : first.SameVersion second) :
    second.SameVersion first := ⟨same.1.symm, same.2.symm⟩

theorem trans {first second third : Program} (same : first.SameVersion second)
    (same' : second.SameVersion third) : first.SameVersion third :=
  ⟨same.1.trans same'.1, same.2.trans same'.2⟩

end SameVersion

/-- In a list in which no two programs share a name, a program is found by its name. -/
theorem find?_id_eq_some {programs : List Program} (nodup : (programs.map id).Nodup)
    {program : Program} (listed : program ∈ programs) :
    programs.find? (fun other => other.id == program.id) = some program := by
  obtain ⟨found, foundEq⟩ : ∃ found, programs.find? (fun other => other.id == program.id) =
      some found :=
    Option.isSome_iff_exists.mp (List.find?_isSome.mpr ⟨program, listed, by simp⟩)
  have sameName : found.id = program.id := by
    simpa using List.find?_some foundEq
  rw [foundEq, List.inj_on_of_nodup_map nodup (List.mem_of_find?_eq_some foundEq) listed sameName]

/-- Among items with distinct names, an item is the only one of its name. -/
theorem filter_name_eq {ι : Type} (name : ι → ProgramId) {items : List ι}
    (distinct : (items.map name).Nodup) {item : ι} (member : item ∈ items) :
    (items.filter fun other => name other == name item) = [item] := by
  induction items with
  | nil => cases member
  | cons first rest ih =>
      obtain ⟨fresh, restDistinct⟩ := List.nodup_cons.mp distinct
      rcases List.mem_cons.mp member with rfl | further
      · have others : (rest.filter fun other => name other == name item) = [] :=
          List.filter_eq_nil_iff.mpr fun other listed same =>
            fresh (beq_iff_eq.mp same ▸ List.mem_map_of_mem listed)
        rw [List.filter_cons, if_pos (beq_self_eq_true _), others]
      · have differs : ¬ (name first == name item) = true := fun same =>
          fresh (beq_iff_eq.mp same ▸ List.mem_map_of_mem further)
        rw [List.filter_cons, if_neg differs, ih restDistinct further]

end Program

namespace Board

/-! ## The roster -/

theorem getElem?_update (tick : Nat) (board : Board) (program : Program) (id : ProgramId) :
    (board.update tick program).roster[id]? =
      if program.id = id then some program.run else board.roster[id]? := by
  unfold update start
  cases board.standing program <;> simp [Std.ExtTreeMap.getElem?_insert]

theorem getElem?_updateAll (tick : Nat) {programs : List Program}
    (nodup : (programs.map Program.id).Nodup) (board : Board) (id : ProgramId) :
    (updateAll tick programs board).1.roster[id]? =
      ((programs.find? fun program => program.id == id).map Program.run).or board.roster[id]? := by
  induction programs generalizing board with
  | nil => rfl
  | cons program rest ih =>
      rw [updateAll]
      dsimp only
      rw [ih (List.nodup_cons.mp nodup).2, getElem?_update]
      by_cases here : program.id = id
      · have absent : rest.find? (fun other => other.id == id) = none := by
          rw [List.find?_eq_none]
          intro other listed same
          apply (List.nodup_cons.mp nodup).1
          rw [here, ← beq_iff_eq.mp same]
          exact List.mem_map_of_mem listed
        simp [here, absent]
      · have passed : (program.id == id) = false := beq_eq_false_iff_ne.mpr here
        rw [if_neg here, List.find?_cons_of_neg (by simp [passed])]

theorem getElem?_foldl_stop (ids : List ProgramId) (board : Board) (id : ProgramId) :
    (ids.foldl stop board).roster[id]? = if id ∈ ids then none else board.roster[id]? := by
  induction ids generalizing board with
  | nil => simp
  | cons first rest ih =>
      rw [List.foldl_cons, ih, stop, Std.ExtTreeMap.getElem?_erase]
      by_cases here : first = id
      · simp [here]
      · simp [here, Ne.symm here]

/-- The roster holds what the list says of each of its programs, and nobody else. -/
theorem getElem?_sync {programs : List Program} (nodup : (programs.map Program.id).Nodup)
    (tick : Nat) (board : Board) (id : ProgramId) :
    (board.sync tick programs).1.roster[id]? =
      (programs.find? fun program => program.id == id).map Program.run := by
  unfold sync
  dsimp only
  rw [getElem?_updateAll tick nodup, getElem?_foldl_stop]
  cases found : programs.find? (fun program => program.id == id) with
  | some program => rfl
  | none =>
      have unlisted : id ∉ programs.map Program.id := by
        simp only [List.find?_eq_none, beq_iff_eq] at found
        simpa using found
      have gone : (if id ∈ board.missingFrom programs then none else board.roster[id]?) = none := by
        by_cases running : board.roster.contains id = true
        · exact if_pos ((mem_missingFrom_iff board programs id).mpr ⟨running, unlisted⟩)
        · rw [Std.ExtTreeMap.contains_eq_isSome_getElem?, Option.not_isSome_iff_eq_none] at running
          rw [running, ite_self]
      exact gone

end Board

/-! ## Launches -/

/-- A program that was started, also again, in a tick. -/
structure Launch where
  tick : Nat
  program : Program

namespace Launch

/-- What the program registered. -/
def contribution (launch : Launch) : World := launch.program.registration launch.tick

theorem contribution_owned (launch : Launch) :
    launch.contribution.Every fun owner _ => owner = launch.program.id :=
  (launch.program.registration_every launch.tick).mono fun _ _ owned => owned.1

theorem contribution_static (launch : Launch) :
    launch.contribution.Every fun _ isDynamic => isDynamic = false :=
  (launch.program.registration_every launch.tick).mono fun _ _ owned => owned.2

/-- The launches of running programs after a tick with a list of programs: those of the
programs that go on, and then those of the programs that it starts. -/
def next (tick : Nat) (lineup : List Launch) (programs : List Program) : List Launch :=
  (lineup.filter fun launch => programs.any fun program => program.SameVersion launch.program) ++
    (programs.filter fun program =>
      !lineup.any fun launch => program.SameVersion launch.program).map (Launch.mk tick)

theorem mem_next_iff {tick : Nat} {lineup : List Launch} {programs : List Program}
    {launch : Launch} :
    launch ∈ next tick lineup programs ↔
      (launch ∈ lineup ∧ ∃ program ∈ programs, program.SameVersion launch.program) ∨
        (launch.tick = tick ∧ launch.program ∈ programs ∧
          ∀ earlier ∈ lineup, ¬ launch.program.SameVersion earlier.program) := by
  cases launch with
  | mk launched program =>
      simp only [next, List.mem_append, List.mem_filter, List.any_eq_true, decide_eq_true_eq,
        List.mem_map, Bool.not_eq_true', List.any_eq_false, mk.injEq]
      refine or_congr_right ⟨?_, ?_⟩
      · rintro ⟨started, ⟨listed, anew⟩, rfl, rfl⟩
        exact ⟨rfl, listed, anew⟩
      · rintro ⟨rfl, listed, anew⟩
        exact ⟨program, ⟨listed, anew⟩, rfl, rfl⟩

end Launch

namespace Board

/-- A board on which the programs of a list run, no two of which share a name, and the
launches to which they owe their static entries. -/
structure Lined (programs : List Program) (lineup : List Launch) (board : Board) : Prop where
  nodup : (programs.map Program.id).Nodup
  roster : ∀ id, board.roster[id]? =
    (programs.find? fun program => program.id == id).map fun program =>
      { codeHash := program.codeHash, debugUrl := program.debugUrl }
  static : board.world.retainStatic = World.concat (lineup.map Launch.contribution)
  listed : ∀ launch ∈ lineup, ∃ program ∈ programs, program.SameVersion launch.program
  launched : ∀ program ∈ programs, ∃ launch ∈ lineup, program.SameVersion launch.program
  distinct : (lineup.map fun launch => launch.program.id).Nodup

namespace Lined

theorem empty : Lined [] [] {} where
  nodup := List.nodup_nil
  roster _ := rfl
  static := rfl
  listed := nofun
  launched := nofun
  distinct := List.nodup_nil

variable {programs : List Program} {lineup : List Launch} {board : Board}

/-- The programs of the list are running, and no others. -/
theorem contains_iff (lined : board.Lined programs lineup) (id : ProgramId) :
    board.roster.contains id = true ↔ id ∈ programs.map Program.id := by
  rw [Std.ExtTreeMap.contains_eq_isSome_getElem?, lined.roster, Option.isSome_map,
    List.find?_isSome, List.mem_map]
  simp only [beq_iff_eq]

/-- A program is running as it is if one of the launches is of its version. -/
theorem standing_eq_current_iff (lined : board.Lined programs lineup) (program : Program) :
    board.standing program = .current ↔
      ∃ launch ∈ lineup, program.SameVersion launch.program := by
  rw [Board.standing_eq_current_iff, Option.any_eq_true]
  simp only [beq_iff_eq]
  constructor
  · rintro ⟨run, running, sameHash⟩
    rw [lined.roster, Option.map_eq_some_iff] at running
    obtain ⟨listed, found, rfl⟩ := running
    obtain ⟨launch, member, same⟩ := lined.launched listed (List.mem_of_find?_eq_some found)
    have sameName : listed.id = program.id := by
      simpa using List.find?_some found
    exact ⟨launch, member, sameName.symm.trans same.1, sameHash.symm.trans same.2⟩
  · rintro ⟨launch, member, same⟩
    obtain ⟨listed, inList, version⟩ := lined.listed launch member
    have version := version.trans same.symm
    refine ⟨listed.run, ?_, version.2⟩
    rw [lined.roster, ← version.1, Program.find?_id_eq_some lined.nodup inList]
    rfl

theorem contains_of_launch (lined : board.Lined programs lineup) {launch : Launch}
    (member : launch ∈ lineup) : board.roster.contains launch.program.id = true := by
  obtain ⟨listed, inList, same⟩ := lined.listed launch member
  rw [Std.ExtTreeMap.contains_eq_isSome_getElem?, lined.roster, ← same.1,
    Program.find?_id_eq_some lined.nodup inList]
  rfl

theorem stale_eq (lined : board.Lined programs lineup) (next : List Program) :
    board.stale next = next.filter fun program =>
      !lineup.any fun launch => program.SameVersion launch.program := by
  apply List.filter_congr
  intro program _
  rw [Bool.eq_iff_iff, bne_iff_ne, ne_eq, lined.standing_eq_current_iff]
  simp

/-- Bringing a board in line keeps the entries of a launch if its version is listed. -/
theorem kept_iff (lined : board.Lined programs lineup) {next : List Program}
    (nodup : (next.map Program.id).Nodup) {launch : Launch} (member : launch ∈ lineup) :
    (!(board.missingFrom next).contains launch.program.id &&
        !((board.stale next).map Program.id).contains launch.program.id) =
      next.any fun program => program.SameVersion launch.program := by
  rw [Bool.eq_iff_iff, Bool.and_eq_true, Bool.not_eq_true', Bool.not_eq_true',
    ← Bool.not_eq_true, ← Bool.not_eq_true, List.contains_iff_mem, List.contains_iff_mem,
    mem_missingFrom_iff, List.any_eq_true]
  simp only [lined.contains_of_launch member, true_and, not_not, decide_eq_true_eq]
  constructor
  · rintro ⟨named, fresh⟩
    obtain ⟨program, listed, sameName⟩ := List.mem_map.mp named
    refine ⟨program, listed, ?_⟩
    by_contra differs
    apply fresh
    rw [← sameName]
    apply List.mem_map_of_mem
    rw [stale, List.mem_filter, bne_iff_ne, ne_eq, lined.standing_eq_current_iff]
    refine ⟨listed, ?_⟩
    rintro ⟨other, otherMember, same⟩
    have sameLaunch : other = launch :=
      List.inj_on_of_nodup_map lined.distinct otherMember member (same.1.symm.trans sameName)
    exact differs (sameLaunch ▸ same)
  · rintro ⟨program, listed, same⟩
    refine ⟨same.1 ▸ List.mem_map_of_mem listed, ?_⟩
    intro restarted
    obtain ⟨other, otherStale, sameName⟩ := List.mem_map.mp restarted
    rw [stale, List.mem_filter, bne_iff_ne, ne_eq, lined.standing_eq_current_iff] at otherStale
    have sameProgram : other = program :=
      List.inj_on_of_nodup_map nodup otherStale.1 listed (sameName.trans same.1.symm)
    exact otherStale.2 ⟨launch, member, sameProgram ▸ same⟩

/-- Bringing a board in line brings its launches in line. -/
theorem sync (lined : board.Lined programs lineup) {next : List Program}
    (nodup : (next.map Program.id).Nodup) (tick : Nat) :
    (board.sync tick next).1.Lined next (Launch.next tick lineup next) where
  nodup := nodup
  roster := getElem?_sync nodup tick board
  static := by
    have registered : (World.concat ((board.stale next).map fun program =>
        program.registration tick)).Every fun _ isDynamic => isDynamic = false := by
      apply World.every_concat
      intro world member
      obtain ⟨program, _, rfl⟩ := List.mem_map.mp member
      exact (Launch.mk tick program).contribution_static
    rw [world_sync nodup, World.retainStatic_append, World.retainStatic_filter, lined.static,
      World.filter_concat_map (fun launch => launch.program.id) Launch.contribution _
        (fun launch _ => launch.contribution_owned),
      World.retainStatic_of_static registered, Launch.next, List.map_append, World.concat_append,
      lined.stale_eq, List.map_map]
    congr 3
    exact List.filter_congr fun launch member => by
      rw [← lined.stale_eq]
      exact lined.kept_iff nodup member
  listed launch member := by
    rcases Launch.mem_next_iff.mp member with ⟨_, still⟩ | ⟨_, started, _⟩
    · exact still
    · exact ⟨launch.program, started, .refl _⟩
  launched program inList := by
    by_cases running : ∃ launch ∈ lineup, program.SameVersion launch.program
    · obtain ⟨launch, member, same⟩ := running
      exact ⟨launch, Launch.mem_next_iff.mpr (.inl ⟨member, program, inList, same⟩), same⟩
    · refine ⟨⟨tick, program⟩, Launch.mem_next_iff.mpr (.inr ⟨rfl, inList, ?_⟩), .refl _⟩
      exact fun earlier member same => running ⟨earlier, member, same⟩
  distinct := by
    rw [Launch.next, List.map_append, List.map_map, List.nodup_append']
    refine ⟨lined.distinct.sublist (List.filter_sublist.map _),
      nodup.sublist (List.filter_sublist.map _), ?_⟩
    intro id continued started
    obtain ⟨launch, member, rfl⟩ := List.mem_map.mp continued
    obtain ⟨program, fresh, sameName⟩ := List.mem_map.mp started
    simp only [List.mem_filter, List.any_eq_true, decide_eq_true_eq, Bool.not_eq_true',
      List.any_eq_false] at member fresh
    obtain ⟨launched, still, listed, same⟩ := member
    have sameProgram : still = program :=
      List.inj_on_of_nodup_map nodup listed fresh.1 (same.1.trans sameName.symm)
    exact fresh.2 launch launched (sameProgram ▸ same)

end Lined

end Board

end Blackboard
