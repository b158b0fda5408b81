import Blackboard.Proofs.Scheduler.Delay
import Blackboard.Proofs.Scheduler.Firing
import Blackboard.Proofs.Scheduler.History

/-!
# Rules that fire at once

An each rule that finds something among the facts that a tick starts from fires in the first
iteration. Whatever its callback does for the matches up to the first for which it fails,
the failure included, is part of the world after the tick
(`Scheduler.effect_isPart_of_tick`).
-/

namespace Blackboard

namespace World

/-! ## Parts of a world -/

/-- A world is a stretch of another one. -/
def IsPart (part world : World) : Prop := ∃ before after, world = before ++ part ++ after

namespace IsPart

variable {part world whole : World}

theorem refl (world : World) : world.IsPart world := ⟨∅, ∅, by simp⟩

theorem trans (first : part.IsPart world) (second : world.IsPart whole) : part.IsPart whole := by
  obtain ⟨before, after, rfl⟩ := first
  obtain ⟨before', after', rfl⟩ := second
  exact ⟨before' ++ before, after ++ after', by simp only [append_assoc]⟩

theorem append_right (inside : part.IsPart world) (other : World) :
    part.IsPart (world ++ other) := by
  obtain ⟨before, after, rfl⟩ := inside
  exact ⟨before, after ++ other, by simp only [append_assoc]⟩

theorem append_left (inside : part.IsPart world) (other : World) :
    part.IsPart (other ++ world) := by
  obtain ⟨before, after, rfl⟩ := inside
  exact ⟨other ++ before, after, by simp only [append_assoc]⟩

theorem concat {worlds : List World} (member : part ∈ worlds) : part.IsPart (concat worlds) := by
  obtain ⟨before, after, rfl⟩ := List.append_of_mem member
  exact ⟨World.concat before, World.concat after, by
    rw [concat_append, concat_cons, append_assoc]⟩

theorem claims (inside : part.IsPart world) : part.claims ⊆ world.claims := by
  obtain ⟨before, after, rfl⟩ := inside
  intro claim member
  simp [member]

theorem errors (inside : part.IsPart world) : part.errors ⊆ world.errors := by
  obtain ⟨before, after, rfl⟩ := inside
  intro entry member
  simp [member]

theorem rules (inside : part.IsPart world) : part.rules ⊆ world.rules := by
  obtain ⟨before, after, rfl⟩ := inside
  intro rule member
  simp [member]

end IsPart

end World

namespace Rule

/-- Handing matches over goes on while the callback does not fail, so what it does for the
first match for which it might is part of what is contributed. -/
theorem effect_isPart_of_deliverEach (rule : Rule) (tick : Nat)
    (callback : Context → Match → Reaction) (turn : Nat) {before : List Match}
    (succeeds : ∀ n ∈ before, ∀ turn, ¬ rule.Fails tick callback turn n) (m : Match)
    (after : List Match) :
    (rule.effect (rule.context tick (turn + before.length))
        (callback (rule.context tick (turn + before.length)) m)).IsPart
      (rule.deliverEach tick callback turn (before ++ m :: after)).contribution := by
  induction before generalizing turn with
  | nil =>
      rw [List.nil_append, deliverEach]
      dsimp only
      split
      · exact .refl _
      · exact (World.IsPart.refl _).append_right _
  | cons n before ih =>
      obtain ⟨here, further⟩ := List.forall_mem_cons.mp succeeds
      have done : (callback (rule.context tick turn) n).outcome.failure? = none :=
        not_not.mp (here turn)
      rw [List.cons_append, deliverEach, List.length_cons]
      dsimp only
      rw [done]
      have turns : turn + (before.length + 1) = turn + 1 + before.length := by omega
      rw [turns]
      exact (ih (turn + 1) further).append_left _

end Rule

namespace Settling

/-- A rule that finds something among the first facts is called in the first iteration. -/
theorem first_call_mem_trace {db : Database} {rules : List Rule} {rule : Rule}
    (listed : rule ∈ rules) (ordinary : rule.kind ≠ .capture)
    (something : (start db rules).found rule ≠ []) (tick : Nat) {iterations : Nat}
    (positive : 0 < iterations) :
    rule.invoke tick 1 0 ((start db rules).found rule) ∈
      ((start db rules).stage tick iterations).trace := by
  obtain ⟨i, placed⟩ := List.mem_iff_getElem?.mp listed
  have fired : (start db rules).firing? tick rule 1 = some 0 :=
    (firing?_eq_some_iff ..).mpr ⟨Nat.one_pos, something, nofun⟩
  have round : ((start db rules).queryRound tick)[i]? = _ :=
    stage_queryRound placed ordinary tick 0
  rw [if_pos fired] at round
  have called : rule.invoke tick 1 0 ((start db rules).found rule) ∈
      ((start db rules).queryRound tick).flatten :=
    List.mem_flatten.mpr ⟨_, List.mem_of_getElem? round, List.mem_cons_self⟩
  rw [trace_stage]
  refine List.mem_append_right _ (List.mem_flatMap.mpr ⟨0, List.mem_range.mpr positive, ?_⟩)
  exact List.mem_append_left _ called

/-- A run takes an iteration. -/
theorem iterations_pos_of_run {tick : Nat} {ceiling : Option Nat} {fuel : Nat} {s last : Settling}
    (finished : s.run tick ceiling fuel = some last) : 0 < last.iterations := by
  obtain ⟨prior, _, rfl⟩ :=
    @exists_last_iteration tick (fun _ => True) (fun _ => id) ceiling fuel s last trivial finished
  exact Nat.succ_pos prior.iterations

end Settling

namespace Scheduler

/-- A tick starts from the facts of its first claims, in their order. -/
theorem facts_opening (s : Scheduler) (board : Board) (millis : Int64) (programs : List Program)
    (name : String) :
    (s.opening board millis programs).database.store.facts name =
      Store.factsOf (s.initialFacts board millis programs) name := by
  rw [store_opening, Store.facts, Store.tuples_insertAll, Store.tuples_empty, List.nil_append]

/-- A tick sees the rules that a listed program registered when it was last started, if what
was ever listed as that version of it registers as it does. -/
theorem Led.exists_registration {s : Scheduler} {history : List (List Program)}
    (led : s.Led history) {programs : List Program} {program : Program}
    (listed : program.ListedIn programs)
    (faithful : ∀ other ∈ (history ++ [programs]).flatten, other.SameVersion program →
      other.registrar = program.registrar) :
    ∃ tick, (program.registration tick).rules ⊆ (s.synced programs).world.rules := by
  obtain ⟨lineup, held⟩ := led.exists_lineup
  have synced := held.lined.sync (Program.nodup_firstById programs) (s.ticks + 1)
  obtain ⟨first, firstListed, version⟩ := listed
  obtain ⟨launch, member, same⟩ := synced.launched first firstListed
  have sameVersion : launch.program.SameVersion program := same.symm.trans version
  have supplied : launch.program ∈ (history ++ [programs]).flatten := by
    rw [List.flatten_append, List.mem_append]
    rcases Launch.mem_next_iff.mp member with ⟨earlier, _⟩ | ⟨_, started, _⟩
    · exact .inl (held.supplied launch earlier)
    · exact .inr (by simpa using Program.mem_of_mem_firstById started)
  refine ⟨launch.tick, fun rule registered => ?_⟩
  rw [← Program.registration_congr sameVersion (faithful _ supplied sameVersion)] at registered
  have inLineup : launch.contribution.IsPart (World.concat
      ((Launch.next (s.ticks + 1) lineup (Program.firstById programs)).map
        Launch.contribution)) := .concat (List.mem_map_of_mem member)
  rw [← synced.static] at inLineup
  exact (List.mem_filter.mp (inLineup.rules registered)).1

/-- What an each rule does in its first call in a tick, for a match that comes before the
first for which it fails or is that match, is part of the world after the tick. -/
theorem effect_isPart_of_tick {s s' : Scheduler} {patience : Nat} {millis : Int64}
    {programs : List Program} {report : TickReport}
    (ticked : s.tick? patience millis programs = some (report, s')) {rule : Rule}
    (listed : rule ∈ (s.synced programs).world.rules) {patterns : List Claim}
    {callback : Context → Match → Reaction} (body : rule.body = .each patterns callback)
    {before after : List Match} {m : Match}
    (found : (s.opening (s.synced programs) millis programs).found rule = before ++ m :: after)
    (succeeds : ∀ n ∈ before, ∀ turn, ¬ rule.Fails (s.ticks + 1) callback turn n) :
    (rule.effect (rule.context (s.ticks + 1) before.length)
      (callback (rule.context (s.ticks + 1) before.length) m)).IsPart s'.board.world := by
  obtain ⟨settling, settled, concluded⟩ := exists_settling_of_tick ticked
  obtain rfl := (congrArg Prod.snd concluded).symm
  have ordinary : rule.kind ≠ .capture := by
    rw [Rule.kind, body]
    exact RuleKind.noConfusion
  have something : (s.opening (s.synced programs) millis programs).found rule ≠ [] := by
    simp [found]
  have called : rule.invoke (s.ticks + 1) 1 0 (before ++ m :: after) ∈ settling.trace := by
    rw [Settling.eq_stage_of_run settled, ← found]
    exact Settling.first_call_mem_trace listed ordinary something (s.ticks + 1)
      (Settling.iterations_pos_of_run settled)
  have handed : (rule.invoke (s.ticks + 1) 1 0 (before ++ m :: after)).contribution =
      (rule.deliverEach (s.ticks + 1) callback 0 (before ++ m :: after)).contribution := by
    unfold Rule.invoke Rule.deliver
    rw [body]
  have inCall := rule.effect_isPart_of_deliverEach (s.ticks + 1) callback 0 succeeds m after
  rw [Nat.zero_add, ← handed] at inCall
  have inTrace : (rule.invoke (s.ticks + 1) 1 0 (before ++ m :: after)).contribution.IsPart
      (World.concat (settling.trace.map fun call => call.contribution)) :=
    .concat (List.mem_map.mpr ⟨_, called, rfl⟩)
  exact (((inCall.trans inTrace).append_right _).append_right _).append_left _

end Scheduler

end Blackboard
