import Blackboard.Proofs.Roster.Lineup
import Blackboard.Proofs.Scheduler.Reachable

/-!
# What history leaves behind

The static entries of a scheduler's world do not depend on what ran before. After ticks
with any lists of programs, the programs of the last list are running, and the static
entries are those that they registered when they were last started, in the order in which
they were started (`Scheduler.Led.static_world_of_current_programs`).
-/

namespace Blackboard

/-! ## Registrations up to the tick -/

namespace Origin

/-- A place in a registration, had this been in another tick. -/
def dated (tick : Nat) : Origin → Origin
  | .item (.registration _ program) index => .item (.registration tick program) index
  | place => place

end Origin

namespace World

/-- The entries of a registration with the identities that they have in another tick. -/
def dated (world : World) (tick : Nat) : World :=
  { world with
    rules := world.rules.map fun rule => { rule with id := rule.id.dated tick }
    errors := world.errors.map fun entry => { entry with site := entry.site.map (.dated tick) } }

theorem dated_append (first second : World) (tick : Nat) :
    (first ++ second).dated tick = first.dated tick ++ second.dated tick := by
  apply ext
  · rfl
  · exact List.map_append
  · exact List.map_append
  · rfl

end World

namespace Program

/-- The registrar goes by nothing but the name of its program. -/
def Steady (program : Program) : Prop :=
  ∀ tick tick', program.registrar (program.context tick) =
    program.registrar (program.context tick')

theorem contribution_dated (program : Program) (tick tick' : Nat) (actions : List Action) :
    ((program.context tick).contribution actions).dated tick' =
      (program.context tick').contribution actions := by
  apply World.ext
  · rfl
  · change List.map _ (List.filterMap _ _) = List.filterMap _ _
    rw [List.map_filterMap]
    apply List.filterMap_congr
    rintro ⟨action, index⟩ _
    cases action with
    | register body =>
        simp only [Context.rule?]
        split <;> rfl
    | assert claim => rfl
    | log document => rfl
    | report message => rfl
  · change List.map _ (List.filterMap _ _) = List.filterMap _ _
    rw [List.map_filterMap]
    apply List.filterMap_congr
    rintro ⟨action, index⟩ _
    cases action <;> rfl
  · rfl

/-- A steady program registers the same in every tick. -/
theorem registration_dated {program : Program} (steady : program.Steady) (tick tick' : Nat) :
    (program.registration tick).dated tick' = program.registration tick' := by
  unfold registration
  dsimp only
  rw [steady tick tick']
  cases (program.registrar (program.context tick')).outcome.failure? with
  | none => exact program.contribution_dated tick tick' _
  | some failure =>
      dsimp only
      rw [World.dated_append, contribution_dated]
      rfl

/-- Programs of one version that have the same registrar register the same. -/
theorem registration_congr {first second : Program} (same : first.SameVersion second)
    (sameRegistrar : first.registrar = second.registrar) (tick : Nat) :
    first.registration tick = second.registration tick := by
  unfold registration context failureEntry
  rw [same.1, sameRegistrar]

/-- The version of a program counts in a list: it is that of the first program of its name. -/
def ListedIn (program : Program) (programs : List Program) : Prop :=
  ∃ listed ∈ firstById programs, listed.SameVersion program

theorem mem_of_mem_firstById {programs : List Program} {program : Program}
    (first : program ∈ firstById programs) : program ∈ programs := by
  induction programs with
  | nil => cases first
  | cons head rest ih =>
      rcases List.mem_cons.mp first with rfl | further
      · exact List.mem_cons_self
      · exact List.mem_cons_of_mem _ (ih (List.mem_filter.mp further).1)

theorem ListedIn.congr {first second : Program} {programs : List Program}
    (listed : first.ListedIn programs) (same : first.SameVersion second) :
    second.ListedIn programs := by
  obtain ⟨program, inList, version⟩ := listed
  exact ⟨program, inList, version.trans same⟩

end Program

/-! ## Launches in the course of history -/

namespace Launch

/-- The last start of a program in the course of ticks with these lists of programs: its
version counts in the list of that tick, not in the list of the tick before, and in every
list since. -/
structure Lasts (history : List (List Program)) (launch : Launch) : Prop where
  begun : ∃ k programs, launch.tick = k + 1 ∧ history[k]? = some programs ∧
    launch.program.ListedIn programs
  anew : ∀ k programs, launch.tick = k + 2 → history[k]? = some programs →
    ¬ launch.program.ListedIn programs
  since : ∀ k programs, launch.tick ≤ k + 1 → history[k]? = some programs →
    launch.program.ListedIn programs

/-- One launch is before another: it took place in an earlier tick, or its program stands
before the other in the list of the same tick. -/
def Precedes (history : List (List Program)) (first second : Launch) : Prop :=
  first.tick < second.tick ∨
    ∃ k programs, first.tick = k + 1 ∧ second.tick = k + 1 ∧ history[k]? = some programs ∧
      ∃ program other, [program, other].Sublist (Program.firstById programs) ∧
        program.SameVersion first.program ∧ other.SameVersion second.program

theorem Lasts.tick_le {history : List (List Program)} {launch : Launch}
    (lasts : launch.Lasts history) : launch.tick ≤ history.length := by
  obtain ⟨k, programs, tickEq, listed, _⟩ := lasts.begun
  rw [tickEq]
  exact (List.getElem?_eq_some_iff.mp listed).1

theorem getElem?_of_append {history : List (List Program)} {programs listed : List Program}
    {k : Nat} (found : (history ++ [programs])[k]? = some listed) :
    history[k]? = some listed ∨ (k = history.length ∧ listed = programs) := by
  rcases Nat.lt_or_ge k history.length with inside | beyond
  · rw [List.getElem?_append_left inside] at found
    exact .inl found
  · rw [List.getElem?_append_right beyond, List.getElem?_singleton] at found
    split at found
    · exact .inr ⟨by omega, (Option.some.inj found).symm⟩
    · cases found

theorem getElem?_append_of_some {history : List (List Program)} {listed : List Program} {k : Nat}
    (found : history[k]? = some listed) (programs : List Program) :
    (history ++ [programs])[k]? = some listed := by
  rw [List.getElem?_append_left (List.getElem?_eq_some_iff.mp found).1, found]

/-- A launch lasts as long as its version is listed. -/
theorem Lasts.append {history : List (List Program)} {launch : Launch}
    (lasts : launch.Lasts history) {programs : List Program}
    (listed : launch.program.ListedIn programs) : launch.Lasts (history ++ [programs]) where
  begun := by
    obtain ⟨k, begun, tickEq, found, named⟩ := lasts.begun
    exact ⟨k, begun, tickEq, getElem?_append_of_some found programs, named⟩
  anew k earlier tickEq found := by
    rcases getElem?_of_append found with before | ⟨rfl, rfl⟩
    · exact lasts.anew k earlier tickEq before
    · have inside := lasts.tick_le
      omega
  since k later after found := by
    rcases getElem?_of_append found with before | ⟨_, rfl⟩
    · exact lasts.since k later after before
    · exact listed

/-- A launch in the last tick, of a version that the tick before did not list. -/
theorem lasts_of_started {history : List (List Program)} {programs : List Program}
    {program : Program} (listed : program ∈ Program.firstById programs)
    (anew : ∀ earlier, history.getLast? = some earlier → ¬ program.ListedIn earlier) :
    Launch.Lasts (history ++ [programs]) ⟨history.length + 1, program⟩ where
  begun := by
    refine ⟨history.length, programs, rfl, by simp, ?_⟩
    exact ⟨program, listed, .refl program⟩
  anew k earlier tickEq found := by
    have last : history.length = k + 1 := Nat.succ.inj tickEq
    apply anew earlier
    rw [List.getLast?_eq_getElem?, last]
    rwa [List.getElem?_append_left (by omega)] at found
  since k later after found := by
    rcases getElem?_of_append found with before | ⟨_, rfl⟩
    · have inside := (List.getElem?_eq_some_iff.mp before).1
      dsimp only at after
      omega
    · exact ⟨program, listed, .refl program⟩

/-- Which of the programs of a version a launch names does not matter. -/
theorem Lasts.congr {history : List (List Program)} {launch other : Launch}
    (lasts : launch.Lasts history) (sameTick : launch.tick = other.tick)
    (same : launch.program.SameVersion other.program) : other.Lasts history where
  begun := by
    obtain ⟨k, programs, tickEq, found, named⟩ := lasts.begun
    exact ⟨k, programs, sameTick ▸ tickEq, found, named.congr same⟩
  anew k programs tickEq found named :=
    lasts.anew k programs (sameTick ▸ tickEq) found (named.congr same.symm)
  since k programs after found :=
    (lasts.since k programs (sameTick ▸ after) found).congr same

theorem Precedes.congr {history : List (List Program)} {first second first' second' : Launch}
    (precedes : Precedes history first second)
    (firstTick : first.tick = first'.tick) (secondTick : second.tick = second'.tick)
    (firstSame : first.program.SameVersion first'.program)
    (secondSame : second.program.SameVersion second'.program) :
    Precedes history first' second' := by
  rw [Precedes, ← firstTick, ← secondTick]
  rcases precedes with earlier |
    ⟨k, programs, firstEq, secondEq, found, program, other, inOrder, same, same'⟩
  · exact .inl earlier
  · exact .inr ⟨k, programs, firstEq, secondEq, found, program, other, inOrder,
      same.trans firstSame, same'.trans secondSame⟩

theorem Precedes.append {history : List (List Program)} {first second : Launch}
    (precedes : Precedes history first second) (programs : List Program) :
    Precedes (history ++ [programs]) first second := by
  rcases precedes with earlier | ⟨k, listed, firstTick, secondTick, found, order⟩
  · exact .inl earlier
  · exact .inr ⟨k, listed, firstTick, secondTick, getElem?_append_of_some found programs, order⟩

/-- The launches of a tick come after all others, in the order of its list. -/
theorem pairwise_next {history : List (List Program)} {lineup : List Launch}
    (lasting : ∀ launch ∈ lineup, launch.Lasts history)
    (ordered : lineup.Pairwise (Precedes history)) (programs : List Program) :
    (next (history.length + 1) lineup (Program.firstById programs)).Pairwise
      (Precedes (history ++ [programs])) := by
  rw [next, List.pairwise_append]
  refine ⟨?_, ?_, ?_⟩
  · exact (ordered.imp fun precedes => precedes.append programs).sublist List.filter_sublist
  · rw [List.pairwise_map, List.pairwise_iff_forall_sublist]
    intro program other inOrder
    refine .inr ⟨history.length, programs, rfl, rfl, by simp, program, other, ?_, .refl _, .refl _⟩
    exact inOrder.trans List.filter_sublist
  · intro launch continued started startedMember
    obtain ⟨program, _, rfl⟩ := List.mem_map.mp startedMember
    exact .inl (Nat.lt_succ_of_le (lasting launch (List.mem_filter.mp continued).1).tick_le)

end Launch

namespace Scheduler

/-! ## Histories -/

/-- The states of a scheduler after ticks with given lists of programs, the first tick's
list first. -/
inductive Led : Scheduler → List (List Program) → Prop
  | initial (settings : Settings) (baseFacts : BaseFacts) : Led { settings, baseFacts } []
  | supplied {s : Scheduler} {history : List (List Program)} (led : Led s history)
      (baseFacts : BaseFacts) : Led { s with baseFacts } history
  | ticked {s s' : Scheduler} {history : List (List Program)} {patience : Nat} {millis : Int64}
      {programs : List Program} {report : TickReport} (led : Led s history)
      (ticked : s.tick? patience millis programs = some (report, s')) :
      Led s' (history ++ [programs])

/-- Every reachable scheduler has a history. -/
theorem Reachable.exists_led {s : Scheduler} (reachable : s.Reachable) :
    ∃ history, s.Led history := by
  induction reachable with
  | initial settings baseFacts => exact ⟨[], .initial settings baseFacts⟩
  | supplied _ baseFacts ih =>
      obtain ⟨history, led⟩ := ih
      exact ⟨history, led.supplied baseFacts⟩
  | ticked _ ticked ih =>
      obtain ⟨history, led⟩ := ih
      exact ⟨_, led.ticked ticked⟩

/-- A tick leaves who is running, and the static entries, as bringing the programs in line
has made them. -/
theorem static_tick {s s' : Scheduler} {patience : Nat} {millis : Int64}
    {programs : List Program} {report : TickReport}
    (ticked : s.tick? patience millis programs = some (report, s')) :
    s'.ticks = s.ticks + 1 ∧ s'.board.roster = (s.synced programs).roster ∧
      s'.board.world.retainStatic = (s.synced programs).world.retainStatic := by
  obtain ⟨settling, settled, concluded⟩ := exists_settling_of_tick ticked
  obtain rfl := (congrArg Prod.snd concluded).symm
  have dynamic := (traced_of_settle settled).contribution_dynamic s.limit
  refine ⟨rfl, rfl, ?_⟩
  change ((s.synced programs).world.retainStatic ++ _).retainStatic = _
  rw [World.retainStatic_append, World.retainStatic_of_dynamic dynamic, World.append_empty]
  exact World.retainStatic_of_static (World.retainStatic_static _)

/-- The programs that are running after a history: the first of each name in its last list. -/
def current (history : List (List Program)) : List Program :=
  (history.getLast?).elim [] Program.firstById

/-- A scheduler's board goes with the launches of its history. -/
structure Lineup (history : List (List Program)) (lineup : List Launch) (s : Scheduler) :
    Prop where
  ticks : s.ticks = history.length
  lined : s.board.Lined (current history) lineup
  /-- The launches name programs as they were listed at the time. -/
  supplied : ∀ launch ∈ lineup, launch.program ∈ history.flatten
  lasting : ∀ launch ∈ lineup, launch.Lasts history
  ordered : lineup.Pairwise (Launch.Precedes history)

theorem Lineup.tick {s s' : Scheduler} {history : List (List Program)} {lineup : List Launch}
    (held : s.Lineup history lineup) {patience : Nat} {millis : Int64} {programs : List Program}
    {report : TickReport} (ticked : s.tick? patience millis programs = some (report, s')) :
    s'.Lineup (history ++ [programs])
      (Launch.next (history.length + 1) lineup (Program.firstById programs)) := by
  obtain ⟨ticks, sameRoster, sameStatic⟩ := static_tick ticked
  have now : current (history ++ [programs]) = Program.firstById programs := by simp [current]
  have synced : (s.synced programs).Lined (Program.firstById programs)
      (Launch.next (history.length + 1) lineup (Program.firstById programs)) := by
    rw [← held.ticks]
    exact held.lined.sync (Program.nodup_firstById programs) (s.ticks + 1)
  exact
    { ticks := by rw [ticks, held.ticks, List.length_append, List.length_singleton]
      lined := by
        rw [now]
        exact
          { synced with
            roster := fun id => by rw [sameRoster, synced.roster id]
            static := by rw [sameStatic, synced.static] }
      supplied := by
        intro launch member
        rw [List.flatten_append, List.mem_append]
        rcases Launch.mem_next_iff.mp member with ⟨earlier, _⟩ | ⟨_, listed, _⟩
        · exact .inl (held.supplied launch earlier)
        · exact .inr (by simpa using Program.mem_of_mem_firstById listed)
      lasting := by
        intro launch member
        rcases Launch.mem_next_iff.mp member with ⟨earlier, still⟩ | ⟨tickEq, listed, anew⟩
        · exact (held.lasting launch earlier).append still
        · have started : launch = ⟨history.length + 1, launch.program⟩ := by
            rw [← tickEq]
          rw [started]
          refine Launch.lasts_of_started listed ?_
          rintro earlier last ⟨before, beforeListed, same⟩
          have running : before ∈ current history := by
            rw [current, last]
            exact beforeListed
          obtain ⟨launched, launchedMember, version⟩ := held.lined.launched before running
          exact anew launched launchedMember (same.symm.trans version)
      ordered := Launch.pairwise_next held.lasting held.ordered programs }

/-- The launches that a history has led to. -/
theorem Led.exists_lineup {s : Scheduler} {history : List (List Program)} (led : s.Led history) :
    ∃ lineup, s.Lineup history lineup := by
  induction led with
  | initial settings baseFacts =>
      exact ⟨[], ⟨rfl, .empty, nofun, nofun, List.Pairwise.nil⟩⟩
  | supplied _ baseFacts ih =>
      obtain ⟨lineup, held⟩ := ih
      exact ⟨lineup, { held with }⟩
  | ticked _ ticked ih =>
      obtain ⟨lineup, held⟩ := ih
      exact ⟨_, held.tick ticked⟩

/-! ## The programs of the last list -/

/-- What the programs of the last list owe to history: when they were started, and in which
order. -/
structure RunsCurrent (history : List (List Program)) (programs : List Program)
    (s : Scheduler) : Prop where
  /-- The first program of each name is running, with the code hash and the debugger that the
  last list has for it. -/
  roster : ∀ id, s.board.roster[id]? =
    ((Program.firstById programs).find? fun program => program.id == id).map fun program =>
      { codeHash := program.codeHash, debugUrl := program.debugUrl }
  /-- The static entries are what these programs registered at their last start, one program
  after the other in the order in which they were started. -/
  static : ∃ lineup : List Launch,
    (lineup.map Launch.program).Perm (Program.firstById programs) ∧
      (∀ launch ∈ lineup, launch.Lasts history) ∧
      lineup.Pairwise (Launch.Precedes history) ∧
      s.board.world.retainStatic = World.concat (lineup.map Launch.contribution)
  /-- Up to the tick of this start, a program's static entries are what it would register on
  an empty board. -/
  own : ∀ program ∈ Program.firstById programs, program.Steady → ∀ tick,
    (s.board.world.filter fun owner isDynamic => owner == program.id && !isDynamic).dated tick =
      (Board.start tick {} program).world
  /-- Nobody else owns a static entry. -/
  others : ∀ id, id ∉ (Program.firstById programs).map Program.id →
    (s.board.world.filter fun owner isDynamic => owner == id && !isDynamic) = ∅

/-- The static entries of an owner are those of his launch, if there is one. -/
theorem Lineup.static_of_owner {s : Scheduler} {history : List (List Program)}
    {lineup : List Launch} (held : s.Lineup history lineup) (id : ProgramId) :
    (s.board.world.filter fun owner isDynamic => owner == id && !isDynamic) =
      World.concat ((lineup.filter fun launch => launch.program.id == id).map
        Launch.contribution) := by
  rw [← World.filter_concat_map (fun launch => launch.program.id) Launch.contribution (· == id)
    fun launch _ => launch.contribution_owned, ← held.lined.static, World.retainStatic,
    World.filter_filter]
  simp only [Bool.and_comm]

theorem Lineup.filter_id_eq {s : Scheduler} {history : List (List Program)}
    {lineup : List Launch} (held : s.Lineup history lineup) {launch : Launch}
    (member : launch ∈ lineup) :
    (lineup.filter fun other => other.program.id == launch.program.id) = [launch] :=
  Program.filter_name_eq (fun other => other.program.id) held.lined.distinct member

/-- The launch of a listed program in place of that of an earlier program of its version. -/
def relist (programs : List Program) (launch : Launch) : Launch :=
  { launch with
    program := (programs.find? fun program => program.id == launch.program.id).getD
      launch.program }

theorem Lineup.relist_listed {s : Scheduler} {history : List (List Program)}
    {lineup : List Launch} (held : s.Lineup history lineup) {launch : Launch}
    (member : launch ∈ lineup) :
    (relist (current history) launch).program ∈ current history ∧
      (relist (current history) launch).program.SameVersion launch.program := by
  obtain ⟨program, listed, same⟩ := held.lined.listed launch member
  have found : (relist (current history) launch).program = program := by
    rw [relist, ← same.1, Program.find?_id_eq_some held.lined.nodup listed]
    rfl
  rw [found]
  exact ⟨listed, same⟩

/-- The launches name every running program once. -/
theorem Lineup.relist_perm {s : Scheduler} {history : List (List Program)}
    {lineup : List Launch} (held : s.Lineup history lineup) :
    ((lineup.map (relist (current history))).map Launch.program).Perm (current history) := by
  have sameNames : ((lineup.map (relist (current history))).map Launch.program).map Program.id =
      lineup.map fun launch => launch.program.id := by
    rw [List.map_map, List.map_map]
    exact List.map_congr_left fun launch member => (held.relist_listed member).2.1
  refine (List.perm_ext_iff_of_nodup ?_ held.lined.nodup.of_map).mpr ?_
  · refine List.Nodup.of_map Program.id ?_
    rw [sameNames]
    exact held.lined.distinct
  · intro program
    simp only [List.mem_map, exists_exists_and_eq_and]
    constructor
    · rintro ⟨launch, member, rfl⟩
      exact (held.relist_listed member).1
    · intro listed
      obtain ⟨launch, member, same⟩ := held.lined.launched program listed
      refine ⟨launch, member, List.inj_on_of_nodup_map held.lined.nodup
        (held.relist_listed member).1 listed ?_⟩
      rw [(held.relist_listed member).2.1, same.1]

theorem mem_flatten_of_current {earlier : List (List Program)} {programs : List Program}
    {program : Program} (listed : program ∈ Program.firstById programs) :
    program ∈ (earlier ++ [programs]).flatten :=
  List.mem_flatten.mpr ⟨programs, by simp, Program.mem_of_mem_firstById listed⟩

/-- What a scheduler holds of static entries, and who is running, depends on its last list
of programs alone, but for the order in which the programs were started. Programs with the
same code hash are taken to have the same registrar. -/
theorem Led.static_world_of_current_programs {s : Scheduler} {earlier : List (List Program)}
    {programs : List Program} (led : s.Led (earlier ++ [programs]))
    (faithful : ∀ first ∈ (earlier ++ [programs]).flatten,
      ∀ second ∈ (earlier ++ [programs]).flatten,
        first.codeHash = second.codeHash → first.registrar = second.registrar) :
    s.RunsCurrent (earlier ++ [programs]) programs := by
  obtain ⟨lineup, held⟩ := led.exists_lineup
  have now : current (earlier ++ [programs]) = Program.firstById programs := by simp [current]
  have listedIn : ∀ launch ∈ lineup,
      (relist (current (earlier ++ [programs])) launch).program ∈ Program.firstById programs :=
    fun launch member => now ▸ (held.relist_listed member).1
  have sameVersion : ∀ launch ∈ lineup,
      launch.program.SameVersion (relist (current (earlier ++ [programs])) launch).program :=
    fun launch member => (held.relist_listed member).2.symm
  -- a launched program and the listed one of its version are both in the history
  have sameContribution : ∀ launch ∈ lineup,
      (relist (current (earlier ++ [programs])) launch).contribution = launch.contribution := by
    intro launch member
    have alike := faithful _ (held.supplied launch member) _
      (mem_flatten_of_current (listedIn launch member)) (sameVersion launch member).2
    exact (Program.registration_congr (sameVersion launch member) alike launch.tick).symm
  constructor
  · intro id
    rw [held.lined.roster, now]
  · refine ⟨lineup.map (relist (current (earlier ++ [programs]))), ?_, ?_, ?_, ?_⟩
    · rw [← now]
      exact held.relist_perm
    · intro launch member
      obtain ⟨launched, launchedMember, rfl⟩ := List.mem_map.mp member
      exact (held.lasting launched launchedMember).congr rfl (sameVersion _ launchedMember)
    · rw [List.pairwise_map]
      refine held.ordered.imp_of_mem ?_
      intro first second firstMember secondMember precedes
      exact precedes.congr rfl rfl (sameVersion _ firstMember) (sameVersion _ secondMember)
    · rw [held.lined.static, List.map_map]
      exact congrArg World.concat
        (List.map_congr_left fun launch member => (sameContribution launch member).symm)
  · intro program listed steady tick
    obtain ⟨launch, member, same⟩ := held.lined.launched program (now ▸ listed)
    have alike := faithful _ (mem_flatten_of_current listed) _ (held.supplied launch member) same.2
    have registered : launch.contribution = program.registration launch.tick :=
      (Program.registration_congr same alike launch.tick).symm
    rw [held.static_of_owner, same.1, held.filter_id_eq member, List.map_singleton,
      World.concat_cons, World.concat_nil, World.append_empty, registered,
      Program.registration_dated steady]
    rfl
  · intro id absent
    rw [held.static_of_owner, List.filter_eq_nil_iff.mpr]
    · rfl
    · intro launch member sameName
      apply absent
      rw [← beq_iff_eq.mp sameName, (sameVersion launch member).1]
      exact List.mem_map_of_mem (listedIn launch member)

/-- A program that is edited, listed a second time, and fails to register after the edit:
its block of static entries moves behind that of the program which went on. That one has
another debugger by then. -/
theorem static_world_of_restarted_program :
    let asserting (name : String) : Action := .assert (.fact "@ is cool" [.text name])
    let bart : Program :=
      { id := ⟨"1"⟩, codeHash := ⟨"v1"⟩, registrar := fun _ => ⟨[asserting "Bart"], .done⟩ }
    let lisa : Program :=
      { id := ⟨"2"⟩, codeHash := ⟨"v2"⟩, registrar := fun _ => ⟨[asserting "Lisa"], .done⟩ }
    let moved : Program := { lisa with debugUrl := some "http://paper-2.local/debug" }
    let milhouse : Program :=
      { id := ⟨"1"⟩, codeHash := ⟨"v3"⟩, debugUrl := some "http://paper-1.local/debug"
        registrar := fun _ => ⟨[asserting "Milhouse"], .panicked (some "parse error")⟩ }
    ∃ s : Scheduler, s.Led [[bart, lisa, milhouse], [milhouse, moved]] ∧
      s.board.roster.toList.map (fun (id, run) => (id.text, run.codeHash.text, run.debugUrl)) =
        [("1", "v3", some "http://paper-1.local/debug"),
          ("2", "v2", some "http://paper-2.local/debug")] ∧
      s.board.world.claims.map (fun claim => claim.source.text) = ["2", "1"] ∧
      s.board.world.errors.map (fun entry => (entry.source.text, entry.message)) =
        [("1", "Program '1' failed to register: parse error")] ∧
      s.RunsCurrent [[bart, lisa, milhouse], [milhouse, moved]] [milhouse, moved] := by
  intro asserting bart lisa moved milhouse
  let s : Scheduler := { settings := {}, baseFacts := fun _ _ => [] }
  have evaluated : ((s.tick? 1 0 [bart, lisa, milhouse]).any fun (_, s₁) =>
      (s₁.tick? 1 1 [milhouse, moved]).any fun (_, s₂) =>
        s₂.board.roster.toList.map (fun (id, run) => (id.text, run.codeHash.text, run.debugUrl)) ==
          [("1", "v3", some "http://paper-1.local/debug"),
            ("2", "v2", some "http://paper-2.local/debug")] &&
        (s₂.board.world.claims.map (fun claim => claim.source.text) == ["2", "1"] &&
          s₂.board.world.errors.map (fun entry => (entry.source.text, entry.message)) ==
            [("1", "Program '1' failed to register: parse error")])) = true := by
    decide +kernel
  obtain ⟨⟨_, s₁⟩, ticked₁, outcome⟩ := (Option.any_eq_true _ _).mp evaluated
  obtain ⟨⟨_, s₂⟩, ticked₂, outcome⟩ := (Option.any_eq_true _ _).mp outcome
  obtain ⟨roster, outcome⟩ := Bool.and_eq_true_iff.mp outcome
  obtain ⟨claims, errors⟩ := Bool.and_eq_true_iff.mp outcome
  have led : s₂.Led ([[bart, lisa, milhouse]] ++ [[milhouse, moved]]) :=
    ((Led.initial {} fun _ _ => []).ticked ticked₁).ticked ticked₂
  refine ⟨s₂, led, eq_of_beq roster, eq_of_beq claims, eq_of_beq errors, ?_⟩
  apply led.static_world_of_current_programs
  intro first firstMember second secondMember same
  simp only [List.cons_append, List.nil_append, List.flatten_cons, List.flatten_nil,
    List.append_nil, List.mem_cons, List.not_mem_nil, or_false] at firstMember secondMember
  rcases firstMember with rfl | rfl | rfl | rfl | rfl <;>
    rcases secondMember with rfl | rfl | rfl | rfl | rfl <;>
    simp [bart, lisa, moved, milhouse] at same ⊢

end Scheduler

end Blackboard
