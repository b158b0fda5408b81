import Blackboard.Proofs.Scheduler.Reachable
import Blackboard.Proofs.Settling.Firing
import Blackboard.Proofs.Settling.Serving

/-!
# What a tick calls, and how often

The ordinary rules of a tick fire once (`Settling.FiresOnce`), whatever the other rules
do and wherever the tick stops. The calls that go into a tick are those of its iterations
and those that close it, rule by rule (`Scheduler.rules_fire_once`).
-/

namespace Blackboard

namespace Scheduler

/-- In a tick, an ordinary rule is called in the first iteration in which it finds
something, with what it finds there, and never again. A grouped rule that found nothing is
called when the tick is closed, and no other rule is. A tick that ends has ended after
some iterations, and these are all its calls. -/
theorem rules_fire_once (s : Scheduler) (millis : Int64) (programs : List Program) :
    let tick := s.ticks + 1
    let rules := (s.synced programs).world.rules
    let opening := s.opening (s.synced programs) millis programs
    (∀ (i : Nat) (rule : Rule), rules[i]? = some rule → rule.kind ≠ .capture →
      ∀ iterations, opening.FiresOnce tick rule i iterations) ∧
    (∀ (i : Nat) (rule : Rule), rules[i]? = some rule → rule.kind ≠ .grouped →
      ∀ iterations, ((opening.stage tick iterations).closeRound tick)[i]? = some []) ∧
    ∀ patience report s', s.tick? patience millis programs = some (report, s') →
      ∃ settling, opening.settle tick s.limit patience = some settling ∧
        s.conclude (s.synced programs) settling = (report, s') ∧
        settling = opening.stage tick settling.iterations ∧
        settling.close tick = (settling.closeRound tick).flatten ∧
        settling.trace = (List.range settling.iterations).flatMap fun k =>
          ((opening.stage tick k).queryRound tick).flatten ++
            ((opening.stage tick k).supplyRound tick).flatten := by
  intro tick rules opening
  refine ⟨?_, ?_, ?_⟩
  · intro i rule placed ordinary iterations
    exact Settling.fires_once placed ordinary tick iterations
  · intro i rule placed other iterations
    refine Settling.closeRound_of_not_grouped ?_ other tick
    rw [Settling.stage_rules]
    change ((rules.map Progress.ofRule).map Progress.rule)[i]? = _
    rwa [Settling.map_rule_ofRule]
  · intro patience report s' ticked
    obtain ⟨settling, settled, concluded⟩ := exists_settling_of_tick ticked
    have staged : settling = opening.stage tick settling.iterations :=
      Settling.eq_stage_of_run settled
    refine ⟨settling, settled, concluded, staged, settling.close_eq_flatten tick, ?_⟩
    calc
      settling.trace
      _ = (opening.stage tick settling.iterations).trace := congrArg Settling.trace staged
      _ = _ := opening.trace_stage tick settling.iterations

/-- A program with a rule that is unblocked by what it misses and fails for the second of
three matches, and with two grouped rules, one of which waits in vain. -/
def household : Program where
  id := ⟨"1"⟩
  codeHash := ⟨"v1"⟩
  registrar _ :=
    let isChild (child parent : Arg) : Claim :=
      { name := "@ is a child of @", args := [child, parent] }
    let supplied (child : String) : Action :=
      .assert (isChild (.val (.text child)) (.val (.text "Homer")))
    ⟨[ .register (.each [isChild (.var "x") (.val (.text "Homer"))] fun _ m =>
         ⟨[], if m.get? "x" == some (.text "Lisa") then .panicked none else .done⟩),
       .register (.grouped [{ name := "@ is lost", args := [.var "x"] }] fun _ _ => .idle),
       .register (.capture (isChild (.var "?x") (.var "p")) fun _ _ =>
         ⟨["Bart", "Lisa", "Maggie"].map supplied, .done⟩),
       .register (.grouped [isChild (.val (.text "Bart")) (.var "y")] fun _ _ => .idle) ], .done⟩

/-- The first rule fires in the second iteration and fails for the second of its matches,
the second rule is called when the tick is closed. -/
theorem rules_fire_once_of_household :
    let s : Scheduler := { settings := {}, baseFacts := fun _ _ => [] }
    let rules := (s.synced [household]).world.rules
    let opening := s.opening (s.synced [household]) 0 [household]
    rules.map Rule.kind = [.each, .grouped, .capture, .grouped] ∧
      ((opening.settle 1 s.limit 1).map Settling.iterations = some 2) ∧
      ((opening.callsOf 1 0 2).map fun call => (call.iteration, call.delivered.length)) =
        [(2, 2)] ∧
      ((opening.callsOf 1 1 2).map fun call => (call.iteration, call.delivered.length)) =
        [(3, 0)] ∧
      ∃ rule, rules[0]? = some rule ∧ (opening.stage 1 1).found rule ≠ [] ∧
        opening.firing? 1 rule 2 = some 1 ∧ opening.FiresOnce 1 rule 0 2 := by
  intro s rules opening
  refine ⟨?_, ?_, ?_, ?_, ?_⟩
  · decide +kernel
  · decide +kernel
  · decide +kernel
  · decide +kernel
  · have first : (rules[0]?.any fun rule => rule.kind == .each &&
        opening.firing? 1 rule 2 == some 1) = true := by decide +kernel
    obtain ⟨rule, placed, checked⟩ := (Option.any_eq_true _ _).mp first
    obtain ⟨each, fired⟩ := Bool.and_eq_true_iff.mp checked
    have ordinary : rule.kind ≠ .capture := by
      rw [eq_of_beq each]
      decide
    have fired := eq_of_beq fired
    exact ⟨rule, placed, ((Settling.firing?_eq_some_iff ..).mp fired).2.1, fired,
      (rules_fire_once s 0 [household]).1 0 rule placed ordinary 2⟩

end Scheduler

end Blackboard
