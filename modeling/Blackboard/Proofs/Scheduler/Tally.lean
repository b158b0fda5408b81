import Blackboard.Proofs.Diagnostics.Entries
import Blackboard.Proofs.Scheduler.Reachable
import Blackboard.Proofs.Settling.Failing
import Blackboard.Proofs.Settling.Tally

/-!
# What a report says that rules have done

The diagnostics of a tick show, for each rule, how many matches were found for it. These are
the matches that were delivered to its callback, unless the callback was handed one at a time
and failed for one that others followed (`Scheduler.report_counts_offers`).
-/

namespace Blackboard

namespace Scheduler

/-- When a tick has ended, the diagnostics show the count of each rule among those of its
program. It is the number of matches that the rule was offered in the tick. The calls with
these offers are all calls of the tick, and they deliver the matches in order, but for those
that follow one for which the callback failed. -/
theorem report_counts_offers {s s' : Scheduler} {patience : Nat} {millis : Int64}
    {programs : List Program} {report : TickReport}
    (ticked : s.tick? patience millis programs = some (report, s')) :
    let tick := s.ticks + 1
    let rules := (s.synced programs).world.rules
    let opening := s.opening (s.synced programs) millis programs
    ∃ settling, opening.settle tick s.limit patience = some settling ∧
      settling.fired.map Prod.fst = rules ∧
      (∀ id, (s'.diagnostics.entry id).rules = Report.recordsOf settling.fired id) ∧
      (settling.trace ++ settling.close tick).Perm ((List.range rules.length).flatMap fun i =>
        opening.callsOf tick i settling.iterations) ∧
      ∀ i rule fired, settling.fired[i]? = some (rule, fired) →
        Settling.Tally tick rule (opening.offersOf tick i settling.iterations)
          (opening.callsOf tick i settling.iterations) fired := by
  intro tick rules opening
  obtain ⟨settling, settled, concluded⟩ := exists_settling_of_tick ticked
  have staged : settling = opening.stage tick settling.iterations :=
    Settling.eq_stage_of_run settled
  have left : s' = (s.conclude (s.synced programs) settling).2 := by rw [concluded]
  have sameRules : settling.progress.map Progress.rule = rules := by
    rw [staged, Settling.stage_rules]
    exact Settling.map_rule_ofRule rules
  refine ⟨settling, settled, ?_, ?_, ?_, ?_⟩
  · rw [← sameRules, Settling.fired, List.map_map]
    rfl
  · intro id
    rw [left]
    exact congrArg ProgramReport.rules (Report.entry_collect ..)
  · have sorted := Settling.calls_perm tick opening.database rules settling.iterations
    change ((opening.stage tick _).trace ++ (opening.stage tick _).close tick).Perm _ at sorted
    rwa [← staged] at sorted
  · intro i rule fired shown
    rw [Settling.fired, List.getElem?_map, Option.map_eq_some_iff] at shown
    obtain ⟨progress, progressEq, shown⟩ := shown
    obtain ⟨rfl, rfl⟩ := Prod.mk.inj shown
    have placed : rules[i]? = some progress.rule := by
      rw [← sameRules, List.getElem?_map, progressEq, Option.map_some]
    obtain ⟨here, hereEq, _, tally⟩ :=
      Settling.tallies opening.database placed tick settling.iterations
    change (opening.stage tick settling.iterations).progress[i]? = some here at hereEq
    rw [← staged, progressEq] at hereEq
    obtain rfl := Option.some.inj hereEq
    exact tally

/-- Who is cool. -/
def coolness (who : Arg) : Claim := { name := "@ is cool", args := [who] }

/-- How many kids somebody has. -/
def kids (parent number : Arg) : Claim := { name := "@ has @ kids", args := [parent, number] }

/-- A rule that fails for the first of two matches, one that finds two only when a capture rule
has claimed them, that capture rule, which fails for the last of its captures, and a grouped
rule that fails. The first alone was not handed all that it counts. -/
theorem report_counts_offers_of_failures :
    let program : Program :=
      { id := ⟨"1"⟩, codeHash := ⟨"v1"⟩
        registrar := fun _ =>
          ⟨[ .register (.each [coolness (.var "x")] fun _ _ => ⟨[], .panicked none⟩),
             .register (.each [coolness (.var "x"), kids (.var "x") (.var "n")] fun _ _ => .idle),
             .register (.capture (kids (.var "p") (.var "?n")) fun _ m =>
               ⟨(m.get? "p").toList.map fun parent =>
                   .assert (.fact "@ has @ kids" [parent, .int 3]),
                 if m.get? "p" == some (.text "Lisa") then .panicked none else .done⟩),
             .register (.grouped [coolness (.var "x")] fun _ _ => ⟨[], .panicked none⟩) ],
            .done⟩ }
    let s : Scheduler :=
      { settings := {}
        baseFacts := fun _ _ =>
          [.fact "@ is cool" [.text "Bart"], .fact "@ is cool" [.text "Lisa"]] }
    let opening := s.opening (s.synced [program]) 0 [program]
    ∃ (report : TickReport) (s' : Scheduler) (settling : Settling),
      s.tick? 2 0 [program] = some (report, s') ∧
      settling.fired.map Prod.snd = [2, 2, 2, 2] ∧
      ((List.range 4).map fun i => ((opening.callsOf 1 i settling.iterations).flatMap fun call =>
        call.delivered).length) = [1, 2, 2, 2] ∧
      ∀ i rule fired, settling.fired[i]? = some (rule, fired) →
        Settling.Tally 1 rule (opening.offersOf 1 i settling.iterations)
          (opening.callsOf 1 i settling.iterations) fired := by
  intro program s opening
  have ends : (s.tick? 2 0 [program]).isSome = true := by decide +kernel
  obtain ⟨⟨report, s'⟩, ticked⟩ := Option.isSome_iff_exists.mp ends
  obtain ⟨settling, settled, _, _, _, tallies⟩ := report_counts_offers ticked
  have evaluated : ((opening.settle 1 s.limit 2).all fun settling =>
      settling.fired.map Prod.snd == [2, 2, 2, 2] &&
        ((List.range 4).map fun i => ((opening.callsOf 1 i settling.iterations).flatMap fun call =>
          call.delivered).length) == [1, 2, 2, 2]) = true := by decide +kernel
  have settledHere : opening.settle 1 s.limit 2 = some settling := settled
  rw [settledHere, Option.all_some, Bool.and_eq_true] at evaluated
  exact ⟨report, s', settling, ticked, eq_of_beq evaluated.1, eq_of_beq evaluated.2, tallies⟩

/-- Two rules fail for the first of two matches each, one of them a capture rule. The
diagnostics show two matches for each, and one was delivered. -/
theorem report_counts_undelivered :
    let fails (_ : Context) (m : Match) : Reaction :=
      ⟨[.log m.toJson], .failed (.failure (.callbackFailed "f"))⟩
    let program : Program :=
      { id := ⟨"1"⟩, codeHash := ⟨"v1"⟩
        registrar := fun _ =>
          ⟨[ .register (.each [coolness (.var "x")] fails),
             .register (.each [coolness (.var "x"), kids (.var "x") (.var "n")] fun _ _ => .idle),
             .register (.capture (kids (.var "p") (.var "?n")) fails) ], .done⟩ }
    let s : Scheduler :=
      { settings := {}
        baseFacts := fun _ _ =>
          [.fact "@ is cool" [.text "Bart"], .fact "@ is cool" [.text "Lisa"]] }
    let opening := s.opening (s.synced [program]) 0 [program]
    ∃ report s' settling, s.tick? 1 0 [program] = some (report, s') ∧
      opening.settle 1 s.limit 1 = some settling ∧
      (s'.diagnostics.entry ⟨"1"⟩).rules.map (fun record => (record.kind, record.fired)) =
        [(.each, 2), (.each, 0), (.capture, 2)] ∧
      ((List.range 3).map fun i => ((opening.callsOf 1 i settling.iterations).flatMap fun call =>
        call.delivered).length) = [1, 0, 1] := by
  intro fails program s opening
  have shown : ((s.tick? 1 0 [program]).any fun (_, s') =>
      (s'.diagnostics.entry ⟨"1"⟩).rules.map (fun record => (record.kind, record.fired)) ==
        [(.each, 2), (.each, 0), (.capture, 2)]) = true := by decide +kernel
  have delivered : ((opening.settle 1 s.limit 1).any fun settling =>
      ((List.range 3).map fun i => ((opening.callsOf 1 i settling.iterations).flatMap fun call =>
        call.delivered).length) == [1, 0, 1]) = true := by decide +kernel
  obtain ⟨⟨report, s'⟩, ticked, records⟩ := (Option.any_eq_true _ _).mp shown
  obtain ⟨settling, settled, lengths⟩ := (Option.any_eq_true _ _).mp delivered
  exact ⟨report, s', settling, ticked, settled, eq_of_beq records, eq_of_beq lengths⟩

end Scheduler

end Blackboard
