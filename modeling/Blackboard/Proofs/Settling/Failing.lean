import Blackboard.Proofs.Settling.Firing
import Blackboard.Proofs.Settling.Serving
import Mathlib.Data.List.Perm.Basic

/-!
# A rule fails once

In a tick, at most one call of a rule fails (`Settling.failures_length_le_one`): an
ordinary rule is called once at most, and a capture rule is not called again once it has
failed. What fails among the calls of a capture rule is what would fail if it were handed
all its captures at once (`Settling.Opens.failures_eq`).
-/

namespace Blackboard

namespace Settling

/-- The failures among calls. -/
def failuresIn (calls : List Invocation) : List Failure := calls.filterMap fun call => call.failure

theorem failuresIn_append (first second : List Invocation) :
    failuresIn (first ++ second) = failuresIn first ++ failuresIn second :=
  List.filterMap_append

/-- The calls of a capture rule, told by its position, are those of the iterations. -/
theorem callsOf_capture {db : Database} {rules : List Rule} {i : Nat} {rule : Rule}
    (placed : rules[i]? = some rule) (capture : rule.kind = .capture) (tick n : Nat) :
    (start db rules).callsOf tick i n =
      (List.range n).flatMap fun k => ((start db rules).stage tick k).callsAt tick i := by
  have stillPlaced (k : Nat) :
      (((start db rules).stage tick k).progress.map Progress.rule)[i]? = some rule := by
    rw [stage_rules]
    change ((rules.map Progress.ofRule).map Progress.rule)[i]? = _
    rwa [map_rule_ofRule]
  have silent (k : Nat) : ((((start db rules).stage tick k).queryRound tick)[i]?) = some [] := by
    obtain ⟨here, hereEq, rfl⟩ := Option.map_eq_some_iff.mp
      (List.getElem?_map.symm.trans (stillPlaced k))
    rw [queryRound, List.getElem?_map, hereEq, Option.map_some, Progress.queryCalls,
      if_pos (Progress.findings_of_not_waiting (Progress.not_waiting_of_capture capture) _)]
  have grouped : rule.kind ≠ .grouped := by
    rw [capture]
    decide
  rw [callsOf, closeRound_of_not_grouped (stillPlaced n) grouped, Option.getD_some,
    List.append_nil]
  refine List.flatMap_congr fun k _ => ?_
  rw [silent, Option.getD_some, List.nil_append, callsAt_eq]

/-- The failures among the calls of a capture rule so far: that for the first of all
captures for which its callback fails. -/
theorem Opens.failures_eq {s : Settling} {rule : Rule} {i : Nat} {pattern : Claim}
    {callback : Context → Match → Reaction} (opens : s.Opens rule i pattern callback)
    (tick n : Nat) :
    failuresIn ((List.range n).flatMap fun k => (s.stage tick k).callsAt tick i) =
      ((s.stage tick n).served tick rule callback pattern.name).failure.toList := by
  induction n with
  | zero =>
      rw [stage_zero, served, opens.fresh]
      rfl
  | succ n ih =>
      rw [List.range_succ, List.flatMap_append, failuresIn_append, ih, List.flatMap_singleton,
        opens.callsAt_stage, (opens.served_succ tick n).2]
      cases ((s.stage tick n).served tick rule callback pattern.name).failure with
      | some failure => rfl
      | none =>
          by_cases silent : (s.stage tick n).recorded pattern.name = []
          · rw [if_pos (.inr silent), silent]
            rfl
          · rw [if_neg (by simp [silent])]
            have failure (iteration turn : Nat) (found : List Match) :
                (rule.invoke tick iteration turn found).failure =
                  (rule.deliverEach tick callback turn found).failure :=
              congrArg Delivery.failure (Rule.invoke_of_capture opens.body ..)
            rw [failuresIn, List.filterMap_cons, failure, Option.none_or]
            generalize (rule.deliverEach tick callback _ _).failure = failed
            cases failed <;> rfl

/-! ## The calls of a tick, rule by rule -/

theorem flatten_eq_flatMap_range (rounds : List (List Invocation)) :
    rounds.flatten = (List.range rounds.length).flatMap fun i => (rounds[i]?).getD [] := by
  have listed : (List.range rounds.length).map (fun i => (rounds[i]?).getD []) = rounds := by
    apply List.ext_getElem
    · simp
    · intro i _ inside
      simp [inside]
  rw [List.flatMap_def, listed]

/-- What is listed for two things may be listed for either of them first. -/
theorem perm_flatMap_swap {ι κ α : Type} (outer : List ι) (inner : List κ)
    (items : ι → κ → List α) :
    (outer.flatMap fun i => inner.flatMap fun j => items i j).Perm
      (inner.flatMap fun j => outer.flatMap fun i => items i j) := by
  induction outer with
  | nil => simp
  | cons i outer ih =>
      simp only [List.flatMap_cons]
      exact (ih.append_left _).trans (List.flatMap_append_perm inner _ _)

/-- All calls of a tick are those of its rules, and each is listed once. -/
theorem calls_perm (tick : Nat) (db : Database) (rules : List Rule) (n : Nat) :
    (((start db rules).stage tick n).trace ++ ((start db rules).stage tick n).close tick).Perm
      ((List.range rules.length).flatMap fun i => (start db rules).callsOf tick i n) := by
  have sameLength (k : Nat) : ((start db rules).stage tick k).progress.length = rules.length := by
    simpa [start] using congrArg List.length (stage_rules tick (start db rules) k)
  have ofRound (k : Nat) (round : Progress → List Invocation) :
      (((start db rules).stage tick k).progress.map round).flatten =
        (List.range rules.length).flatMap fun i =>
          ((((start db rules).stage tick k).progress.map round)[i]?).getD [] := by
    rw [flatten_eq_flatMap_range, List.length_map, sameLength]
  have unstarted : (start db rules).trace = [] := rfl
  rw [trace_stage, close_eq_flatten, unstarted, List.nil_append]
  simp only [queryRound, supplyRound, closeRound, ofRound]
  -- within an iteration, then over all of them, and last with the calls that close the tick
  refine (List.Perm.append_right _ ((List.Perm.flatMap_left _ fun k _ =>
    List.flatMap_append_perm _ _ _).trans (perm_flatMap_swap _ _ _))).trans ?_
  exact List.flatMap_append_perm _ _ _

/-- The calls of a round that stand at a position are those of the rule there. -/
theorem rule_of_mem_round {round : Progress → List Invocation}
    (own : ∀ here, ∀ call ∈ round here, call.rule = here.rule) {progress : List Progress} {i : Nat}
    {call : Invocation} (called : call ∈ ((progress.map round)[i]?).getD []) :
    (progress.map Progress.rule)[i]? = some call.rule := by
  rw [List.getElem?_map] at called ⊢
  cases placed : progress[i]? with
  | none =>
      rw [placed] at called
      cases called
  | some here =>
      rw [placed] at called
      rw [Option.map_some, own here call called]

/-- The calls at a position are those of the rule there. -/
theorem rule_of_mem_callsOf {tick : Nat} {db : Database} {rules : List Rule} {i n : Nat}
    {call : Invocation} (called : call ∈ (start db rules).callsOf tick i n) :
    rules[i]? = some call.rule := by
  have ofRound {k : Nat} {round : Progress → List Invocation}
      (own : ∀ here, ∀ call ∈ round here, call.rule = here.rule)
      (called : call ∈ ((((start db rules).stage tick k).progress.map round)[i]?).getD []) :
      rules[i]? = some call.rule := by
    rw [← rule_of_mem_round own called, stage_rules]
    exact congrArg (·[i]?) (map_rule_ofRule rules).symm
  rcases List.mem_append.mp called with ofIteration | ofClosing
  · obtain ⟨k, _, ofIteration⟩ := List.mem_flatMap.mp ofIteration
    rcases List.mem_append.mp ofIteration with ofQuery | ofSupply
    · refine ofRound (fun here call made => ?_) ofQuery
      rw [Progress.queryCalls] at made
      split at made
      · cases made
      · rw [List.mem_singleton.mp made, Rule.invoke_rule]
    · refine ofRound (fun here call made => ?_) ofSupply
      obtain ⟨_, _, _, rfl⟩ := Progress.supply_calls made
      exact here.queried_rule _
  · refine ofRound (fun here call made => ?_) ofClosing
    rw [Progress.idleCalls] at made
    split at made
    · rw [List.mem_singleton.mp made, Rule.invoke_rule]
    · cases made

/-- Among the calls at a position there is at most one that fails. -/
theorem failures_length_le_one {db : Database} {rules : List Rule}
    (opens : ∀ i rule pattern callback, rules[i]? = some rule →
      rule.body = .capture pattern callback → (start db rules).Opens rule i pattern callback)
    (tick i n : Nat) : (failuresIn ((start db rules).callsOf tick i n)).length ≤ 1 := by
  cases placed : rules[i]? with
  | none =>
      have idle : (start db rules).callsOf tick i n = [] := by
        refine List.eq_nil_iff_forall_not_mem.mpr fun call called => ?_
        have held := rule_of_mem_callsOf called
        rw [placed] at held
        cases held
      rw [idle]
      exact Nat.zero_le 1
  | some rule =>
      by_cases capture : rule.kind = .capture
      · obtain ⟨pattern, callback, body⟩ := Rule.exists_body_of_capture capture
        rw [callsOf_capture placed capture,
          (opens i rule pattern callback placed body).failures_eq]
        exact Option.length_toList_le
      · have once : ((start db rules).callsOf tick i n).length ≤ 1 := by
          rw [callsOf_ordinary placed capture]
          cases (start db rules).firing? tick rule n with
          | some k => simp
          | none => split <;> simp
        exact (List.length_filterMap_le _ _).trans once

end Settling

end Blackboard
