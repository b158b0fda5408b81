import Blackboard.Proofs.Settling.Supply

/-!
# Captures are delivered once, and in order

Over a tick, a capture rule is handed the captures of its name one by one, in the
order in which they were recorded and in the iterations that recorded them, up to
the first for which its callback fails (`Settling.run_serves_captures`).
-/

namespace Blackboard

namespace Settling

/-! ## What is handed over -/

/-- What would come of handing a capture rule all captures of a name so far. -/
def served (tick : Nat) (s : Settling) (rule : Rule) (callback : Context → Match → Reaction)
    (name : String) : Delivery :=
  rule.deliverEach tick callback 0 (s.captured name)

/-- The matches that the next iteration hands the capture rule at a position. -/
def deliveredAt (tick : Nat) (s : Settling) (i : Nat) : List Match :=
  (s.callsAt tick i).flatMap fun call => call.delivered

/-- The matches that the first iterations hand the capture rule at a position. -/
def deliveredBy (tick : Nat) (s : Settling) (i iterations : Nat) : List Match :=
  (List.range iterations).flatMap fun k => (s.stage tick k).deliveredAt tick i

theorem deliveredBy_succ (tick : Nat) (s : Settling) (i iterations : Nat) :
    s.deliveredBy tick i (iterations + 1) =
      s.deliveredBy tick i iterations ++ (s.stage tick iterations).deliveredAt tick i := by
  simp [deliveredBy, List.range_succ]

/-- A tick that has not recorded anything under the name of a capture rule, which
stands at a position. -/
structure Opens (s : Settling) (rule : Rule) (i : Nat) (pattern : Claim)
    (callback : Context → Match → Reaction) : Prop where
  indexed : s.database.store.Indexed
  placed : s.progress[i]? = some (.ofRule rule)
  body : rule.body = .capture pattern callback
  fresh : s.captured pattern.name = []

namespace Opens

variable {s : Settling} {rule : Rule} {i : Nat} {pattern : Claim}
  {callback : Context → Match → Reaction}

/-- Through all iterations, the rule has been handed the captures of its name. -/
theorem fed (opens : s.Opens rule i pattern callback) (tick iterations : Nat) :
    ∃ here, (s.stage tick iterations).progress[i]? = some here ∧ here.rule = rule ∧
      here.Fed tick callback ((s.stage tick iterations).captured pattern.name) := by
  induction iterations with
  | zero =>
      refine ⟨.ofRule rule, opens.placed, rfl, ?_⟩
      rw [stage_zero, opens.fresh]
      exact ⟨rfl, fun _ => ⟨rfl, rfl⟩⟩
  | succ iterations ih =>
      obtain ⟨here, placed, rfl, fed⟩ := ih
      exact (iterate_fed (stage_indexed opens.indexed tick iterations) placed opens.body fed).2

variable (tick k : Nat)

theorem captured_succ (opens : s.Opens rule i pattern callback) :
    (s.stage tick (k + 1)).captured pattern.name =
      (s.stage tick k).captured pattern.name ++ (s.stage tick k).recorded pattern.name :=
  iterate_captured (stage_indexed opens.indexed tick k) tick pattern.name

/-- What comes of the captures of an iteration adds to what came of those before. -/
theorem served_succ (opens : s.Opens rule i pattern callback) :
    let before := (s.stage tick k).served tick rule callback pattern.name
    let round := rule.deliverEach tick callback ((s.stage tick k).captured pattern.name).length
      ((s.stage tick k).recorded pattern.name)
    let after := (s.stage tick (k + 1)).served tick rule callback pattern.name
    after.delivered =
        before.delivered ++ (if before.failure = none then round.delivered else []) ∧
      after.failure = before.failure.or round.failure := by
  intro before round after
  have appended := rule.deliverEach_append tick callback 0
    ((s.stage tick k).captured pattern.name) ((s.stage tick k).recorded pattern.name)
  rwa [Nat.zero_add, ← opens.captured_succ tick k] at appended

/-- The calls of the rule: one in every iteration that records something, until the
callback has failed. -/
theorem callsAt_stage (opens : s.Opens rule i pattern callback) :
    (s.stage tick k).callsAt tick i =
      if ((s.stage tick k).served tick rule callback pattern.name).failure ≠ none ∨
          (s.stage tick k).recorded pattern.name = [] then
        []
      else
        [rule.invoke tick (s.iterations + k + 1) ((s.stage tick k).captured pattern.name).length
          ((s.stage tick k).recorded pattern.name)] := by
  obtain ⟨here, placed, rfl, fed⟩ := opens.fed tick k
  have calls :=
    (iterate_fed (stage_indexed opens.indexed tick k) placed opens.body fed).1
  rw [fed.retired, iterations_stage] at calls
  simp only [Option.isSome_iff_ne_none] at calls
  exact calls

/-- While the callback has not failed, an iteration hands over what it records. -/
theorem deliveredAt_stage (opens : s.Opens rule i pattern callback) :
    (s.stage tick k).deliveredAt tick i =
      if ((s.stage tick k).served tick rule callback pattern.name).failure = none then
        (rule.deliverEach tick callback ((s.stage tick k).captured pattern.name).length
          ((s.stage tick k).recorded pattern.name)).delivered
      else
        [] := by
  rw [deliveredAt, opens.callsAt_stage tick k]
  by_cases done : ((s.stage tick k).served tick rule callback pattern.name).failure = none
  · rw [if_pos done]
    by_cases silent : (s.stage tick k).recorded pattern.name = []
    · rw [if_pos (.inr silent), silent]
      rfl
    · rw [if_neg (by simp [done, silent])]
      simp [Rule.invoke, Rule.deliver, opens.body]
  · rw [if_neg done, if_pos (.inl done)]
    rfl

/-- The matches handed over in a number of iterations are those that would be handed
over if the captures came all at once. -/
theorem deliveredBy_eq (opens : s.Opens rule i pattern callback) (iterations : Nat) :
    s.deliveredBy tick i iterations =
      ((s.stage tick iterations).served tick rule callback pattern.name).delivered := by
  induction iterations with
  | zero =>
      rw [stage_zero, served, opens.fresh]
      rfl
  | succ iterations ih =>
      rw [deliveredBy_succ, ih, opens.deliveredAt_stage tick iterations,
        (opens.served_succ tick iterations).1]

/-- The rule has failed in an iteration if one of its calls has. -/
theorem failure_succ_eq_none_iff (opens : s.Opens rule i pattern callback) :
    ((s.stage tick (k + 1)).served tick rule callback pattern.name).failure = none ↔
      ((s.stage tick k).served tick rule callback pattern.name).failure = none ∧
        ∀ call ∈ (s.stage tick k).callsAt tick i, call.failure = none := by
  rw [(opens.served_succ tick k).2, Option.or_eq_none_iff, opens.callsAt_stage tick k]
  apply and_congr_right
  intro done
  by_cases silent : (s.stage tick k).recorded pattern.name = []
  · rw [if_pos (.inr silent), silent]
    simp [Rule.deliverEach]
  · rw [if_neg (by simp [done, silent])]
    simp [Rule.invoke, Rule.deliver, opens.body]

/-- The callback has not failed for a capture so far if none of its calls has failed. -/
theorem failure_stage_eq_none_iff (opens : s.Opens rule i pattern callback) :
    ((s.stage tick k).served tick rule callback pattern.name).failure = none ↔
      ∀ l < k, ∀ call ∈ (s.stage tick l).callsAt tick i, call.failure = none := by
  induction k with
  | zero =>
      rw [stage_zero, served, opens.fresh]
      simp [Rule.deliverEach]
  | succ k ih =>
      rw [opens.failure_succ_eq_none_iff tick k, ih]
      exact Nat.forall_lt_succ_right.symm

/-- Up to an iteration in which the callback fails, all that is recorded is handed over. -/
theorem deliveredAt_eq_recorded (opens : s.Opens rule i pattern callback)
    (done : ((s.stage tick (k + 1)).served tick rule callback pattern.name).failure = none) :
    (s.stage tick k).deliveredAt tick i = (s.stage tick k).recorded pattern.name := by
  rw [(opens.served_succ tick k).2, Option.or_eq_none_iff] at done
  rw [opens.deliveredAt_stage tick k, if_pos done.1]
  exact Rule.delivered_of_done done.2

end Opens

/-- What a capture rule, told by its position, has been handed in the first iterations. -/
structure Served (tick : Nat) (s : Settling) (rule : Rule) (i : Nat) (name : String)
    (callback : Context → Match → Reaction) (iterations : Nat) : Prop where
  /-- Captures are only appended. -/
  appended : ∀ k, (s.stage tick (k + 1)).captured name =
    (s.stage tick k).captured name ++ (s.stage tick k).recorded name
  calls : ∀ k, ∀ call ∈ (s.stage tick k).callsAt tick i,
    call.rule = rule ∧ call.iteration = k + 1
  /-- If no call has failed, the rule has been handed all captures, each in the
  iteration that recorded it, and has counted them. -/
  complete : (∀ k < iterations, ∀ call ∈ (s.stage tick k).callsAt tick i, call.failure = none) →
    s.deliveredBy tick i iterations = (s.stage tick iterations).captured name ∧
      (∀ k < iterations,
        (s.stage tick k).deliveredAt tick i = (s.stage tick k).recorded name) ∧
      ∃ progress, (s.stage tick iterations).progress[i]? = some progress ∧
        progress.rule = rule ∧ progress.fired = ((s.stage tick iterations).captured name).length
  /-- If a call has failed, the rule has been handed the captures up to the first for
  which its callback fails, and it is not called again. -/
  failing : ∀ k < iterations, ∀ call ∈ (s.stage tick k).callsAt tick i, call.failure ≠ none →
    (∃ j m, ((s.stage tick iterations).captured name)[j]? = some m ∧
      rule.Fails tick callback j m ∧
      (∀ l < j, ∀ n, ((s.stage tick iterations).captured name)[l]? = some n →
        ¬ rule.Fails tick callback l n) ∧
      s.deliveredBy tick i iterations =
        ((s.stage tick iterations).captured name).take (j + 1)) ∧
      (∀ l < k, (s.stage tick l).deliveredAt tick i = (s.stage tick l).recorded name) ∧
      (s.stage tick k).deliveredAt tick i <+: (s.stage tick k).recorded name ∧
      ∀ l > k, (s.stage tick l).callsAt tick i = []

theorem Opens.serves {s : Settling} {rule : Rule} {i : Nat} {pattern : Claim}
    {callback : Context → Match → Reaction} (opens : s.Opens rule i pattern callback)
    (unstarted : s.iterations = 0) (tick iterations : Nat) :
    s.Served tick rule i pattern.name callback iterations where
  appended k := opens.captured_succ tick k
  calls k call called := by
    rw [opens.callsAt_stage tick k] at called
    split at called
    · cases called
    · obtain rfl := List.mem_singleton.mp called
      refine ⟨rfl, ?_⟩
      change s.iterations + k + 1 = k + 1
      rw [unstarted, Nat.zero_add]
  complete noneFails := by
    have done := (opens.failure_stage_eq_none_iff tick iterations).mpr noneFails
    refine ⟨?_, ?_, ?_⟩
    · rw [opens.deliveredBy_eq tick iterations]
      exact Rule.delivered_of_done done
    · intro k earlier
      apply opens.deliveredAt_eq_recorded tick k
      apply (opens.failure_stage_eq_none_iff tick (k + 1)).mpr
      intro l before
      exact noneFails l (Nat.lt_of_lt_of_le before earlier)
    · obtain ⟨here, placed, rfl, fed⟩ := opens.fed tick iterations
      have waiting : here.retired = false := by
        rw [fed.retired]
        exact Option.isSome_eq_false_iff.mpr (Option.isNone_iff_eq_none.mpr done)
      exact ⟨here, placed, rfl, (fed.counted waiting).2⟩
  failing k earlier call called fails := by
    have failed : ∀ l > k,
        ((s.stage tick l).served tick rule callback pattern.name).failure ≠ none := by
      intro l later done
      exact fails ((opens.failure_stage_eq_none_iff tick l).mp done k later call called)
    have doneBefore : ((s.stage tick k).served tick rule callback pattern.name).failure = none := by
      by_contra already
      rw [opens.callsAt_stage tick k, if_pos (.inl already)] at called
      cases called
    refine ⟨?_, ?_, ?_, ?_⟩
    · rcases rule.deliverEach_cases tick callback 0
        ((s.stage tick iterations).captured pattern.name) with ⟨done, _⟩ | ⟨_, j, m, first⟩
      · exact absurd done (failed iterations earlier)
      · simp only [Nat.zero_add] at first
        rw [opens.deliveredBy_eq tick iterations]
        exact ⟨j, m, first⟩
    · intro l before
      apply opens.deliveredAt_eq_recorded tick l
      apply (opens.failure_stage_eq_none_iff tick (l + 1)).mpr
      intro l' before'
      exact (opens.failure_stage_eq_none_iff tick k).mp doneBefore l'
        (Nat.lt_of_lt_of_le before' before)
    · rw [opens.deliveredAt_stage tick k, if_pos doneBefore]
      apply Rule.delivered_prefix
    · intro l later
      rw [opens.callsAt_stage tick l, if_pos (.inl (failed l later))]

/-! ## The trace -/

theorem stage_rules (tick : Nat) (s : Settling) (iterations : Nat) :
    (s.stage tick iterations).progress.map Progress.rule = s.progress.map Progress.rule := by
  induction iterations with
  | zero => rfl
  | succ iterations ih => exact (iterate_rules tick _).trans ih

theorem stage_captureCalls (tick : Nat) (db : Database) (rules : List Rule) (iterations : Nat) :
    captureCalls ((start db rules).stage tick iterations).trace =
      (List.range iterations).flatMap fun k =>
        (List.range rules.length).flatMap (((start db rules).stage tick k).callsAt tick) := by
  induction iterations with
  | zero => rfl
  | succ iterations ih =>
      have sameLength : ((start db rules).stage tick iterations).progress.length =
          rules.length := by
        have sameRules := congrArg List.length (stage_rules tick (start db rules) iterations)
        simpa [start] using sameRules
      rw [stage_succ, iterate_captureCalls, ih, sameLength, List.range_succ,
        List.flatMap_append, List.flatMap_singleton]

/-- A capture rule is handed the captures of its name once and in order, up to the
first for which its callback fails. This holds after every iteration, wherever the
tick stops, and whatever other rules capture the same name. The trace of a run holds
these calls, in order, and no others of capture rules. -/
theorem run_serves_captures (tick : Nat) (claims : List Claim)
    (templates : Std.ExtTreeMap String Claim) (rules : List Rule) (i : Nat) (rule : Rule)
    (placed : rules[i]? = some rule) (pattern : Claim) (callback : Context → Match → Reaction)
    (body : rule.body = .capture pattern callback) :
    let opening := start { store := .ofClaims claims, captures := { templates } } rules
    (∀ iterations, opening.Served tick rule i pattern.name callback iterations) ∧
      ∀ ceiling fuel s, opening.run tick ceiling fuel = some s →
        s = opening.stage tick s.iterations ∧
          captureCalls (s.close tick) = [] ∧
          captureCalls s.trace =
            (List.range s.iterations).flatMap fun k =>
              (List.range rules.length).flatMap ((opening.stage tick k).callsAt tick) := by
  intro opening
  have opens : opening.Opens rule i pattern callback :=
    { indexed := Store.indexed_ofClaims claims
      placed := by
        change (rules.map Progress.ofRule)[i]? = _
        rw [List.getElem?_map, placed]
        rfl
      body := body
      fresh := by
        simp [captured, opening, start, Captures.under] }
  refine ⟨opens.serves rfl tick, ?_⟩
  intro ceiling fuel s finished
  have staged := eq_stage_of_run finished
  refine ⟨staged, ?_, ?_⟩
  · apply List.filter_eq_nil_iff.mpr
    intro invocation called
    obtain ⟨progress, _, grouped, _, rfl⟩ := exists_progress_of_mem_close called
    simp [grouped]
  · rw [← stage_captureCalls, ← staged]

/-- Two rules capture the misses of a third, in each of two iterations. The second
fails for the second of four captures. -/
theorem run_serves_captures_of_failure :
    let pattern : Claim := { name := "@ has @ kids", args := [.var "p", .var "?n"] }
    let fails (_ : Context) (m : Match) : Reaction :=
      ⟨[], if m.get? "p" == some (.text "Homer") then .panicked none else .done⟩
    let given (n : Nat) (body : RuleBody) : Rule :=
      { id := .given n, body, source := .core, isDynamic := false }
    let failing := given 2 (.capture pattern fails)
    let rules : List Rule :=
      [ given 0 (.each [{ name := "@ is a parent", args := [.var "x"] },
          { name := "@ has @ kids", args := [.var "x", .var "n"] }] fun _ _ => .idle),
        given 1 (.capture pattern fun _ _ => ⟨[.assert (.fact "someone asked" [])], .done⟩),
        failing ]
    let claims : List Claim :=
      [ .fact "@ is a parent" [.text "Marge"], .fact "@ is a parent" [.text "Homer"] ]
    let opening := start
      { store := .ofClaims claims
        captures := { templates := Std.ExtTreeMap.ofList [("@ has @ kids", pattern)] } } rules
    rules[2]? = some failing ∧ failing.body = .capture pattern fails ∧
      ((opening.run 1 none 3).map Settling.iterations = some 2) ∧
      ((opening.stage 1 2).captured "@ has @ kids").length = 4 ∧
      (opening.deliveredBy 1 1 2).length = 4 ∧ (opening.deliveredBy 1 2 2).length = 2 ∧
      ((opening.stage 1 0).callsAt 1 2).any (fun call => call.failure.isSome) = true ∧
      opening.Served 1 failing 2 "@ has @ kids" fails 2 := by
  intro pattern fails given failing rules claims opening
  refine ⟨rfl, rfl, ?_, ?_, ?_, ?_, ?_, ?_⟩
  · decide +kernel
  · decide +kernel
  · decide +kernel
  · decide +kernel
  · decide +kernel
  · exact (run_serves_captures 1 claims _ rules 2 failing rfl pattern fails rfl).1 2

end Settling

end Blackboard
