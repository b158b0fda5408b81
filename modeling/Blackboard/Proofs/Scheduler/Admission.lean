import Blackboard.Proofs.Scheduler.Reachable

/-!
# Registered rules are admitted

A registration may be refused, and then no rule comes of it. The rules of a
reachable scheduler, also those of a tick that has brought its programs in line,
wait for something, and the templates of their capture rules have slots
(`Scheduler.Reachable.admitted_synced`).
-/

namespace Blackboard

/-- The rules of a world are none that would be refused. -/
def World.Admitted (world : World) : Prop := ∀ rule ∈ world.rules, rule.body.refusal? = none

namespace World

theorem admitted_empty : (∅ : World).Admitted := nofun

theorem admitted_ofError (entry : ErrorEntry) : (ofError entry).Admitted := nofun

theorem admitted_ofFailure (entry : Failure → ErrorEntry) (failure : Option Failure) :
    (ofFailure entry failure).Admitted := by
  cases failure with
  | none => exact admitted_empty
  | some failure => exact admitted_ofError _

theorem Admitted.append {first second : World} (firstAdmitted : first.Admitted)
    (secondAdmitted : second.Admitted) : (first ++ second).Admitted :=
  List.forall_mem_append.mpr ⟨firstAdmitted, secondAdmitted⟩

theorem Admitted.filter {world : World} (admitted : world.Admitted)
    (keep : ProgramId → Bool → Bool) : (world.filter keep).Admitted := by
  intro rule member
  exact admitted rule (List.mem_filter.mp member).1

theorem admitted_concat {worlds : List World} (admitted : ∀ world ∈ worlds, world.Admitted) :
    (concat worlds).Admitted := by
  intro rule member
  obtain ⟨world, listed, held⟩ := List.mem_flatMap.mp member
  exact admitted world listed rule held

end World

/-! ## Where rules come from -/

theorem Context.admitted_contribution (context : Context) (actions : List Action) :
    (context.contribution actions).Admitted := by
  intro rule member
  obtain ⟨⟨action, index⟩, _, made⟩ := List.mem_filterMap.mp member
  cases action with
  | register body =>
      simp only [rule?] at made
      split at made
      · next accepted =>
          obtain rfl := Option.some.inj made
          exact Option.isNone_iff_eq_none.mp accepted
      · cases made
  | assert asserted => cases made
  | log document => cases made
  | report message => cases made

namespace Rule

theorem admitted_effect (rule : Rule) (context : Context) (reaction : Reaction) :
    (rule.effect context reaction).Admitted := by
  rw [effect_eq]
  exact (context.admitted_contribution reaction.actions).append (World.admitted_ofFailure _ _)

theorem admitted_deliverEach (rule : Rule) (tick : Nat) (callback : Context → Match → Reaction)
    (turn : Nat) (matches_ : List Match) :
    (rule.deliverEach tick callback turn matches_).contribution.Admitted := by
  rw [deliverEach_contribution]
  apply World.admitted_concat
  intro world member
  obtain ⟨⟨m, turn⟩, _, rfl⟩ := List.mem_map.mp member
  exact rule.admitted_effect _ _

theorem admitted_invoke (rule : Rule) (tick iteration turn : Nat) (matches_ : List Match) :
    (rule.invoke tick iteration turn matches_).contribution.Admitted := by
  unfold invoke deliver
  cases rule.body with
  | each patterns callback => exact rule.admitted_deliverEach tick callback turn matches_
  | grouped patterns callback => exact rule.admitted_effect _ _
  | capture pattern callback => exact rule.admitted_deliverEach tick callback turn matches_

end Rule

theorem Program.admitted_registration (program : Program) (tick : Nat) :
    (program.registration tick).Admitted := by
  rw [registration_eq]
  exact ((program.context tick).admitted_contribution _).append (World.admitted_ofFailure _ _)

namespace Settling

theorem admitted_of_isCall {tick : Nat} {rules : List Rule} {calls : List Invocation}
    (made : ∀ invocation ∈ calls, IsCall tick rules invocation) :
    (World.concat (calls.map fun invocation => invocation.contribution)).Admitted := by
  apply World.admitted_concat
  intro world member
  obtain ⟨invocation, called, rfl⟩ := List.mem_map.mp member
  obtain ⟨rule, _, iteration, turn, matches_, rfl⟩ := made invocation called
  exact rule.admitted_invoke tick iteration turn matches_

theorem Traced.admitted_contribution {tick : Nat} {db : Database} {rules : List Rule}
    {s : Settling} (traced : s.Traced tick db rules) (limit : Option Nat) :
    (s.contribution tick limit).Admitted := by
  refine World.Admitted.append (World.Admitted.append (admitted_of_isCall traced.calls) ?_)
    (admitted_of_isCall traced.close_calls)
  split
  · split
    · exact World.admitted_empty
    · exact World.admitted_ofError _
  · exact World.admitted_empty

end Settling

/-! ## Ticks -/

namespace Scheduler

theorem admitted_synced {s : Scheduler} (admitted : s.board.world.Admitted)
    (programs : List Program) : (s.synced programs).world.Admitted := by
  unfold synced
  rw [Board.world_sync (Program.nodup_firstById programs)]
  apply World.Admitted.append
  · exact admitted.filter _
  · apply World.admitted_concat
    intro world member
    obtain ⟨program, _, rfl⟩ := List.mem_map.mp member
    exact program.admitted_registration (s.ticks + 1)

theorem Reachable.admitted {s : Scheduler} (reachable : s.Reachable) : s.board.world.Admitted := by
  induction reachable with
  | initial settings baseFacts => exact World.admitted_empty
  | supplied _ baseFacts ih => exact ih
  | ticked _ ticked ih =>
      obtain ⟨settling, settled, concluded⟩ := exists_settling_of_tick ticked
      obtain rfl := (congrArg Prod.snd concluded).symm
      apply World.Admitted.append
      · exact (admitted_synced ih _).filter _
      · exact (traced_of_settle settled).admitted_contribution _

/-- The rules of a tick are none that would have been refused. -/
theorem Reachable.admitted_synced {s : Scheduler} (reachable : s.Reachable)
    (programs : List Program) : (s.synced programs).world.Admitted :=
  Scheduler.admitted_synced reachable.admitted programs

end Scheduler

end Blackboard
