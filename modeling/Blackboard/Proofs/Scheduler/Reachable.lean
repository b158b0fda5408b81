import Blackboard.Proofs.Roster.Sync
import Blackboard.Proofs.Settling.Step
import Blackboard.Scheduler

/-!
# Reachable schedulers

A scheduler is reachable if it comes about by ticks, with any programs at any
times; its base facts can be replaced in between. The entries of its world belong
to running programs, but for the error that the engine itself leaves behind when
a tick does not settle (`Scheduler.Reachable.housed`).
-/

namespace Blackboard

/-! ## Who the entries of a world belong to -/

/-- Every entry belongs to one of the running programs, except errors of the
engine, which last for one tick. -/
structure World.Housed (world : World) (running : ProgramId → Prop) : Prop where
  claims : ∀ claim ∈ world.claims, running claim.source
  rules : ∀ rule ∈ world.rules, running rule.source
  errors : ∀ entry ∈ world.errors,
    running entry.source ∨ (entry.source = .core ∧ entry.isDynamic = true)
  logs : ∀ entry ∈ world.logs, running entry.source

namespace World

section Housed

variable {running : ProgramId → Prop}

theorem Housed.of_every {world : World} (every : world.Every fun owner _ => running owner) :
    world.Housed running where
  claims := every.claims
  rules := every.rules
  errors entry member := .inl (every.errors entry member)
  logs := every.logs

theorem Housed.append {first second : World} (firstHoused : first.Housed running)
    (secondHoused : second.Housed running) : (first ++ second).Housed running where
  claims := List.forall_mem_append.mpr ⟨firstHoused.claims, secondHoused.claims⟩
  rules := List.forall_mem_append.mpr ⟨firstHoused.rules, secondHoused.rules⟩
  errors := List.forall_mem_append.mpr ⟨firstHoused.errors, secondHoused.errors⟩
  logs := List.forall_mem_append.mpr ⟨firstHoused.logs, secondHoused.logs⟩

/-- Entries that a filter leaves belong to the programs that are still running. -/
theorem Housed.filter {world : World} (housed : world.Housed running)
    {keep : ProgramId → Bool → Bool} {still : ProgramId → Prop}
    (kept : ∀ owner isDynamic, running owner → keep owner isDynamic = true → still owner) :
    (world.filter keep).Housed still where
  claims claim member :=
    have ⟨held, passes⟩ := List.mem_filter.mp member
    kept _ _ (housed.claims claim held) passes
  rules rule member :=
    have ⟨held, passes⟩ := List.mem_filter.mp member
    kept _ _ (housed.rules rule held) passes
  errors entry member :=
    have ⟨held, passes⟩ := List.mem_filter.mp member
    (housed.errors entry held).imp_left fun owned => kept _ _ owned passes
  logs entry member :=
    have ⟨held, passes⟩ := List.mem_filter.mp member
    kept _ _ (housed.logs entry held) passes

theorem housed_limitEntry (limit : Nat) :
    (ofError (Settling.limitEntry limit)).Housed running where
  claims := nofun
  rules := nofun
  errors := by
    intro entry member
    obtain rfl := List.mem_singleton.mp member
    exact .inr ⟨rfl, rfl⟩
  logs := nofun

end Housed

end World

/-- The entries of a board's world belong to its running programs. -/
def Board.Housed (board : Board) : Prop :=
  board.world.Housed fun id => board.roster.contains id = true

namespace Board

theorem Housed.sync {board : Board} (housed : board.Housed) {programs : List Program}
    (nodup : (programs.map Program.id).Nodup) (tick : Nat) :
    (board.sync tick programs).1.Housed := by
  unfold Housed
  rw [world_sync nodup]
  refine World.Housed.append ?_ (.of_every (World.every_concat ?_))
  · apply World.Housed.filter housed
    intro owner _ running kept
    rw [contains_sync]
    by_contra unlisted
    have missing := (mem_missingFrom_iff board programs owner).mpr ⟨running, unlisted⟩
    simp [missing] at kept
  · intro world member
    obtain ⟨program, stale, rfl⟩ := List.mem_map.mp member
    apply (program.registration_every tick).mono
    intro owner _ owned
    rw [contains_sync, owned.1]
    exact List.mem_map_of_mem (List.mem_filter.mp stale).1

end Board

namespace Settling

/-! ## What a tick contributes -/

theorem every_of_isCall {tick : Nat} {rules : List Rule} {calls : List Invocation}
    (made : ∀ invocation ∈ calls, IsCall tick rules invocation) :
    (World.concat (calls.map fun invocation => invocation.contribution)).Every
      fun owner isDynamic => isDynamic = true ∧ ∃ rule ∈ rules, owner = rule.source := by
  apply World.every_concat
  intro world member
  obtain ⟨invocation, called, rfl⟩ := List.mem_map.mp member
  obtain ⟨rule, listed, iteration, turn, matches_, rfl⟩ := made invocation called
  exact (rule.invoke_every tick iteration turn matches_).mono fun owner isDynamic owned =>
    ⟨owned.2, rule, listed, owned.1⟩

/-- Everything that is contributed in a tick is dynamic. -/
theorem Traced.contribution_dynamic {tick : Nat} {db : Database} {rules : List Rule} {s : Settling}
    (traced : s.Traced tick db rules) (limit : Option Nat) :
    (s.contribution tick limit).Every fun _ isDynamic => isDynamic = true := by
  refine ((World.Every.append ?_ ?_).append ?_)
  · exact (every_of_isCall traced.calls).mono fun _ _ owned => owned.1
  · split
    · split
      · exact World.every_empty
      · exact World.every_ofError rfl
    · exact World.every_empty
  · exact (every_of_isCall traced.close_calls).mono fun _ _ owned => owned.1

/-- Everything that is contributed in a tick belongs to the program of a rule,
but for the error of a tick that does not settle. -/
theorem Traced.contribution_housed {tick : Nat} {db : Database} {rules : List Rule} {s : Settling}
    (traced : s.Traced tick db rules) {running : ProgramId → Prop}
    (housed : ∀ rule ∈ rules, running rule.source) (limit : Option Nat) :
    (s.contribution tick limit).Housed running := by
  have ofCalls {calls : List Invocation}
      (made : ∀ invocation ∈ calls, IsCall tick rules invocation) :
      (World.concat (calls.map fun invocation => invocation.contribution)).Housed running := by
    refine .of_every ((every_of_isCall made).mono ?_)
    rintro owner _ ⟨_, rule, listed, rfl⟩
    exact housed rule listed
  refine World.Housed.append (World.Housed.append (ofCalls traced.calls) ?_)
    (ofCalls traced.close_calls)
  split
  · split
    · exact .of_every World.every_empty
    · exact World.housed_limitEntry _
  · exact .of_every World.every_empty

end Settling

namespace Scheduler

/-! ## Ticks -/

/-- A tick that ends is a run that ends, and what is concluded from it. -/
theorem exists_settling_of_tick {s s' : Scheduler} {patience : Nat} {millis : Int64}
    {programs : List Program} {report : TickReport}
    (ticked : s.tick? patience millis programs = some (report, s')) :
    ∃ settling,
      (s.opening (s.synced programs) millis programs).settle (s.ticks + 1) s.limit patience =
          some settling ∧
        s.conclude (s.synced programs) settling = (report, s') :=
  Option.map_eq_some_iff.mp ticked

theorem traced_of_settle {s : Scheduler} {board : Board} {millis : Int64}
    {programs : List Program} {patience : Nat} {settling : Settling}
    (settled : (s.opening board millis programs).settle (s.ticks + 1) s.limit patience =
      some settling) :
    settling.Traced (s.ticks + 1) (s.opening board millis programs).database board.world.rules :=
  Settling.traced_of_run settled

/-- The states of a scheduler. -/
inductive Reachable : Scheduler → Prop
  | initial (settings : Settings) (baseFacts : BaseFacts) : Reachable { settings, baseFacts }
  | supplied {s : Scheduler} (reachable : Reachable s) (baseFacts : BaseFacts) :
      Reachable { s with baseFacts }
  | ticked {s s' : Scheduler} {patience : Nat} {millis : Int64} {programs : List Program}
      {report : TickReport} (reachable : Reachable s)
      (ticked : s.tick? patience millis programs = some (report, s')) : Reachable s'

theorem housed_synced {s : Scheduler} (housed : s.board.Housed) (programs : List Program) :
    (s.synced programs).Housed :=
  housed.sync (Program.nodup_firstById programs) (s.ticks + 1)

theorem housed_tick {s s' : Scheduler} (housed : s.board.Housed) {patience : Nat} {millis : Int64}
    {programs : List Program} {report : TickReport}
    (ticked : s.tick? patience millis programs = some (report, s')) : s'.board.Housed := by
  obtain ⟨settling, settled, concluded⟩ := exists_settling_of_tick ticked
  obtain rfl := (congrArg Prod.snd concluded).symm
  have synced := housed_synced housed programs
  have traced := traced_of_settle settled
  exact World.Housed.append (synced.filter fun _ _ running _ => running)
    (traced.contribution_housed synced.rules s.limit)

/-- The entries of the world of a reachable scheduler belong to running programs. -/
theorem Reachable.housed {s : Scheduler} (reachable : s.Reachable) : s.board.Housed := by
  induction reachable with
  | initial settings baseFacts => exact .of_every World.every_empty
  | supplied _ baseFacts ih => exact ih
  | ticked _ ticked ih => exact housed_tick ih ticked

end Scheduler

end Blackboard
