import Blackboard.Proofs.Rule.Account
import Blackboard.Proofs.Settling.Rulewise

/-!
# Ordinary rules fire once

An ordinary rule is called in the first iteration in which it finds something
(`Settling.firing?`), with all that it finds then, and retires. A grouped rule that never
finds anything is called when the tick is closed. So a tick calls a grouped rule exactly
once, and an each rule at most once for a match (`Settling.fires_once`).

Rules are told apart by their position in the list of rules, as the loop does.
-/

namespace Blackboard

namespace Rule

/-- How the callback of an ordinary rule is run on what the rule found: an each callback
for one match after the other, up to the first for which it fails, a grouped callback once. -/
structure Runs (rule : Rule) (tick : Nat) (found : List Match) (call : Delivery) : Prop where
  each : ∀ patterns callback, rule.body = .each patterns callback →
    call.contribution = World.concat (call.delivered.zipIdx.map fun (m, turn) =>
        rule.effect (rule.context tick turn) (callback (rule.context tick turn) m)) ∧
      ((call.delivered = found ∧
          ∀ j m, found[j]? = some m → ¬ rule.Fails tick callback j m) ∨
        ∃ j m, found[j]? = some m ∧ rule.Fails tick callback j m ∧
          (∀ l < j, ∀ n, found[l]? = some n → ¬ rule.Fails tick callback l n) ∧
          call.delivered = found.take (j + 1))
  grouped : ∀ patterns callback, rule.body = .grouped patterns callback →
    call.delivered = found ∧
      call.contribution =
        rule.effect (rule.context tick 0) (callback (rule.context tick 0) found)

theorem deliver_runs (rule : Rule) (tick : Nat) (found : List Match) :
    rule.Runs tick found (rule.deliver tick 0 found) where
  each patterns callback body := by
    unfold deliver
    rw [body]
    refine ⟨rule.deliverEach_contribution tick callback 0 found, ?_⟩
    have none := rule.failure_eq_none_iff tick callback 0 found
    have cases := rule.deliverEach_cases tick callback 0 found
    simp only [Nat.zero_add] at none cases
    rcases cases with ⟨done, all⟩ | ⟨_, first⟩
    · exact .inl ⟨all, none.mp done⟩
    · exact .inr first
  grouped patterns callback body := by
    unfold deliver
    rw [body]
    exact ⟨rfl, rfl⟩

end Rule

namespace Settling

/-! ## The iteration in which a rule fires -/

/-- What a rule finds in the next iteration, if it waits. -/
def found (s : Settling) (rule : Rule) : List Match := (s.database.store.answer rule.patterns).found

/-- How many of a number of iterations pass before the first in which a rule finds
something, if there is one. -/
def firing? (tick : Nat) (s : Settling) (rule : Rule) (iterations : Nat) : Option Nat :=
  (List.range iterations).find? fun k => !((s.stage tick k).found rule).isEmpty

section Firing

variable (tick : Nat) (s : Settling) (rule : Rule)

theorem firing?_eq_some_iff (n k : Nat) :
    s.firing? tick rule n = some k ↔
      k < n ∧ (s.stage tick k).found rule ≠ [] ∧ ∀ l < k, (s.stage tick l).found rule = [] := by
  rw [firing?, List.find?_range_eq_some]
  simp only [Bool.not_eq_true', List.isEmpty_eq_false_iff, List.mem_range, Bool.not_not,
    List.isEmpty_iff]
  exact and_left_comm

theorem firing?_succ (n : Nat) :
    s.firing? tick rule (n + 1) =
      (s.firing? tick rule n).or (if (s.stage tick n).found rule = [] then none else some n) := by
  rw [firing?, List.range_succ, List.find?_append]
  congr 1
  by_cases nothing : (s.stage tick n).found rule = [] <;> simp [nothing]

/-- In the next iteration a rule fires if it has not fired yet and finds something. -/
theorem firing?_eq_some_self_iff {n k : Nat} (inside : k < n) :
    s.firing? tick rule n = some k ↔
      s.firing? tick rule k = none ∧ (s.stage tick k).found rule ≠ [] := by
  rw [firing?_eq_some_iff, firing?, List.find?_range_eq_none]
  simp [inside, and_comm]

end Firing

/-! ## The rule at a position -/

/-- Closing a tick calls grouped rules only. -/
theorem closeRound_of_not_grouped {s : Settling} {i : Nat} {rule : Rule}
    (placed : (s.progress.map Progress.rule)[i]? = some rule) (other : rule.kind ≠ .grouped)
    (tick : Nat) : (s.closeRound tick)[i]? = some [] := by
  rw [List.getElem?_map, Option.map_eq_some_iff] at placed
  obtain ⟨here, hereEq, rfl⟩ := placed
  rw [closeRound, List.getElem?_map, hereEq, Option.map_some,
    Progress.idleCalls_of_busy here fun idle => other idle.1]

theorem findings_ofRule {rule : Rule} (ordinary : rule.kind ≠ .capture) (s : Settling) :
    (Progress.ofRule rule).findings s.database.store = s.found rule := if_pos ⟨rfl, ordinary⟩

theorem not_waiting_retire (progress : Progress) (found : List Match) :
    ¬ (progress.retire found).Waiting := fun waiting => Bool.noConfusion waiting.1

/-- All calls of the rule at a position, if the tick is closed after some iterations. -/
def callsOf (tick : Nat) (s : Settling) (i iterations : Nat) : List Invocation :=
  (List.range iterations).flatMap (fun k =>
      (((s.stage tick k).queryRound tick)[i]?).getD [] ++
        (((s.stage tick k).supplyRound tick)[i]?).getD []) ++
    (((s.stage tick iterations).closeRound tick)[i]?).getD []

/-- What becomes of an ordinary rule, told by its position, in a number of iterations. -/
structure FiresOnce (tick : Nat) (s : Settling) (rule : Rule) (i iterations : Nat) : Prop where
  /-- It is called in the first iteration in which it finds something, with all of that. -/
  queried : ∀ k < iterations, ((s.stage tick k).queryRound tick)[i]? =
    some (if s.firing? tick rule iterations = some k then
      [rule.invoke tick (k + 1) 0 ((s.stage tick k).found rule)]
    else
      [])
  supplied : ∀ k < iterations, ((s.stage tick k).supplyRound tick)[i]? = some []
  runs : ∀ iteration found, rule.Runs tick found (rule.invoke tick iteration 0 found).toDelivery
  /-- It counts what it found. -/
  counted : ∃ progress, (s.stage tick iterations).progress[i]? = some progress ∧
    progress.rule = rule ∧ progress.fired =
      (s.firing? tick rule iterations).elim 0 fun k => ((s.stage tick k).found rule).length
  /-- It queries in no iteration after the one in which it fires. -/
  spent : ∀ k, s.firing? tick rule iterations = some k → ∀ l, k < l → l ≤ iterations →
    ∃ progress, (s.stage tick l).progress[i]? = some progress ∧
      ∀ iteration db, progress.query tick iteration db = (progress, db, [])
  /-- A grouped rule that has not fired is called when the tick is closed. -/
  closed : ((s.stage tick iterations).closeRound tick)[i]? =
    some (if rule.kind = .grouped ∧ s.firing? tick rule iterations = none then
      [rule.invoke tick (iterations + 1) 0 []]
    else
      [])
  /-- The tick calls a grouped rule once. -/
  grouped : rule.kind = .grouped → ∃ call, s.callsOf tick i iterations = [call]
  /-- It calls an each rule for the matches that the rule found when it fired, one after
  the other, and for none of them twice. -/
  each : rule.kind = .each →
    (s.callsOf tick i iterations).flatMap (fun call => call.delivered) <+:
      (s.firing? tick rule iterations).elim [] fun k => (s.stage tick k).found rule

section Placed

variable {db : Database} {rules : List Rule} {i : Nat} {rule : Rule}
  (placed : rules[i]? = some rule) (ordinary : rule.kind ≠ .capture) (tick : Nat)

include placed ordinary

/-- A rule waits until it finds something, and has then retired with that. -/
theorem stage_ordinary (n : Nat) :
    ((start db rules).stage tick n).progress[i]? =
      some (((start db rules).firing? tick rule n).elim (.ofRule rule) fun k =>
        (Progress.ofRule rule).retire (((start db rules).stage tick k).found rule)) := by
  induction n with
  | zero =>
      change (rules.map Progress.ofRule)[i]? = _
      rw [List.getElem?_map, placed]
      rfl
  | succ n ih =>
      rw [stage_succ, iterate_progress, List.getElem?_map, ih, Option.map_some, firing?_succ]
      cases (start db rules).firing? tick rule n with
      | some k =>
          rw [Option.elim_some, Option.some_or, Option.elim_some, supplied_of_ordinary ordinary,
            Progress.queried_of_not_waiting (not_waiting_retire _ _)]
      | none =>
          rw [Option.elim_none, Option.none_or, supplied_of_ordinary ordinary, Progress.queried,
            findings_ofRule ordinary]
          split <;> rfl

theorem stage_queryRound (n : Nat) :
    (((start db rules).stage tick n).queryRound tick)[i]? =
      some (if (start db rules).firing? tick rule (n + 1) = some n then
        [rule.invoke tick (n + 1) 0 (((start db rules).stage tick n).found rule)]
      else
        []) := by
  rw [queryRound, List.getElem?_map, stage_ordinary placed ordinary, Option.map_some,
    iterations_stage_start, Progress.queryCalls]
  simp only [firing?_eq_some_self_iff tick _ rule n.lt_succ_self]
  cases (start db rules).firing? tick rule n with
  | some k =>
      rw [Option.elim_some, Progress.findings_of_not_waiting (not_waiting_retire _ _)]
      simp
  | none =>
      rw [Option.elim_none, findings_ofRule ordinary]
      by_cases nothing : ((start db rules).stage tick n).found rule = [] <;>
        simp [nothing, Progress.ofRule]

theorem stage_supplyRound (n : Nat) :
    (((start db rules).stage tick n).supplyRound tick)[i]? = some [] := by
  rw [supplyRound, List.getElem?_map, stage_ordinary placed ordinary, Option.map_some,
    supplied_of_ordinary]
  cases (start db rules).firing? tick rule n <;> exact ordinary

theorem stage_closeRound (n : Nat) :
    (((start db rules).stage tick n).closeRound tick)[i]? =
      some (if rule.kind = .grouped ∧ (start db rules).firing? tick rule n = none then
        [rule.invoke tick (n + 1) 0 []]
      else
        []) := by
  rw [closeRound, List.getElem?_map, stage_ordinary placed ordinary, Option.map_some,
    iterations_stage_start, Progress.idleCalls]
  cases fired : (start db rules).firing? tick rule n with
  | none => simp [Progress.ofRule]
  | some k =>
      have something := ((firing?_eq_some_iff ..).mp fired).2.1
      simp [Progress.ofRule, Progress.retire, something]

/-- In the iterations themselves, a rule is called once if it fires, and else not at all. -/
theorem calls_of_ordinary (n : Nat) :
    ((List.range n).flatMap fun k =>
        ((((start db rules).stage tick k).queryRound tick)[i]?).getD [] ++
          ((((start db rules).stage tick k).supplyRound tick)[i]?).getD []) =
      ((start db rules).firing? tick rule n).toList.map fun k =>
        rule.invoke tick (k + 1) 0 (((start db rules).stage tick k).found rule) := by
  induction n with
  | zero => rfl
  | succ n ih =>
      rw [List.range_succ, List.flatMap_append, ih, List.flatMap_singleton,
        stage_queryRound placed ordinary, stage_supplyRound placed ordinary, Option.getD_some,
        Option.getD_some, List.append_nil]
      simp only [firing?_eq_some_self_iff tick _ rule n.lt_succ_self]
      rw [firing?_succ]
      cases (start db rules).firing? tick rule n with
      | some k => simp
      | none =>
          by_cases nothing : ((start db rules).stage tick n).found rule = [] <;> simp [nothing]

theorem callsOf_ordinary (n : Nat) :
    (start db rules).callsOf tick i n =
      (((start db rules).firing? tick rule n).toList.map fun k =>
        rule.invoke tick (k + 1) 0 (((start db rules).stage tick k).found rule)) ++
      if rule.kind = .grouped ∧ (start db rules).firing? tick rule n = none then
        [rule.invoke tick (n + 1) 0 []]
      else
        [] := by
  rw [callsOf, calls_of_ordinary placed ordinary, stage_closeRound placed ordinary,
    Option.getD_some]

theorem fires_once (n : Nat) : (start db rules).FiresOnce tick rule i n where
  queried k inside := by
    rw [stage_queryRound placed ordinary]
    simp only [firing?_eq_some_self_iff tick _ rule k.lt_succ_self,
      firing?_eq_some_self_iff tick _ rule inside]
  supplied k _ := stage_supplyRound placed ordinary tick k
  runs _ found := rule.deliver_runs tick found
  counted := by
    refine ⟨_, stage_ordinary placed ordinary tick n, ?_⟩
    cases (start db rules).firing? tick rule n with
    | none => exact ⟨rfl, rfl⟩
    | some k => exact ⟨rfl, Nat.zero_add _⟩
  spent k fired l later _ := by
    have firedBefore : (start db rules).firing? tick rule l = some k := by
      rw [firing?_eq_some_iff] at fired ⊢
      exact ⟨later, fired.2⟩
    refine ⟨_, stage_ordinary placed ordinary tick l, ?_⟩
    intro iteration db
    rw [firedBefore, Option.elim_some]
    rcases Progress.query_cases tick iteration _ db with ⟨_, result⟩ | ⟨waiting, _⟩ | ⟨waiting, _⟩
    · exact result
    · exact absurd waiting (not_waiting_retire _ _)
    · exact absurd waiting (not_waiting_retire _ _)
  closed := stage_closeRound placed ordinary tick n
  grouped kind := by
    rw [callsOf_ordinary placed ordinary]
    cases (start db rules).firing? tick rule n with
    | none => exact ⟨_, if_pos ⟨kind, rfl⟩⟩
    | some k => exact ⟨_, by simp; rfl⟩
  each kind := by
    rw [callsOf_ordinary placed ordinary]
    cases (start db rules).firing? tick rule n with
    | none => simp [kind]
    | some k =>
        simp only [Option.toList_some, List.map_singleton, reduceCtorEq, and_false, if_false,
          List.append_nil, List.flatMap_singleton, Option.elim_some]
        exact (rule.invoke_accounts tick (k + 1) 0 _).handed

end Placed

end Settling

end Blackboard
