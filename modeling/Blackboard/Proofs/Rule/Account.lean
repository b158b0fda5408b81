import Blackboard.Proofs.Rule.Delivery
import Blackboard.Proofs.World.Contribution
import Mathlib.Data.List.Basic

/-!
# What failures leave behind

A callback may fail at any point. What it did before counts all the same, in every one of
its runs, and the failure adds one error to that: of all runs in a call only the last can
fail (`Rule.invoke_accounts`). A registrar is in the same position (`Program.registration_eq`).
-/

namespace Blackboard

/-- An error and a panic are failures, and nothing else is. -/
theorem Outcome.failure?_eq_none_iff (outcome : Outcome) :
    outcome.failure? = none ↔ outcome = .done := by
  cases outcome with
  | done => simp [failure?]
  | failed fault => cases fault <;> simp [failure?]
  | panicked message => simp [failure?]

namespace Reaction

/-- The messages that a reaction reports, each with the place of its action. -/
def reports (reaction : Reaction) : List (String × Nat) :=
  reaction.actions.zipIdx.filterMap fun
    | (.report message, index) => some (message, index)
    | _ => none

end Reaction

namespace Context

/-- Actions contribute one error for each report. -/
theorem contribution_errors (context : Context) (reaction : Reaction) :
    (context.contribution reaction.actions).errors = reaction.reports.map fun report =>
      { source := context.source, isDynamic := context.isDynamic, message := report.1,
        site := some (.item context.origin report.2) } := by
  change List.filterMap _ _ = List.map _ (List.filterMap _ _)
  rw [List.map_filterMap]
  apply List.filterMap_congr
  rintro ⟨action, index⟩ _
  cases action <;> rfl

end Context

namespace Rule

/-! ## Runs -/

/-- The runs of a callback for one match after the other. -/
def runsEach (rule : Rule) (tick : Nat) (callback : Context → Match → Reaction) (turn : Nat)
    (delivered : List Match) : List (Context × Reaction) :=
  (delivered.zipIdx turn).map fun (m, turn) =>
    (rule.context tick turn, callback (rule.context tick turn) m)

/-- The runs of a rule's callback for the matches of a call. -/
def runs (rule : Rule) (tick turn : Nat) (delivered : List Match) : List (Context × Reaction) :=
  match rule.body with
  | .each _ callback => rule.runsEach tick callback turn delivered
  | .grouped _ callback =>
    [(rule.context tick 0, callback (rule.context tick 0) delivered)]
  | .capture _ callback => rule.runsEach tick callback turn delivered

/-- A callback is run in contexts of its rule. -/
theorem context_of_mem_runs {rule : Rule} {tick turn : Nat} {delivered : List Match}
    {run : Context × Reaction} (made : run ∈ rule.runs tick turn delivered) :
    ∃ turn, run.1 = rule.context tick turn := by
  have ofEach {callback : Context → Match → Reaction}
      (made : run ∈ rule.runsEach tick callback turn delivered) :
      ∃ turn, run.1 = rule.context tick turn := by
    obtain ⟨placed, _, rfl⟩ := List.mem_map.mp made
    exact ⟨placed.2, rfl⟩
  unfold runs at made
  cases body : rule.body with
  | each patterns callback =>
      rw [body] at made
      exact ofEach made
  | grouped patterns callback =>
      rw [body] at made
      obtain rfl := List.mem_singleton.mp made
      exact ⟨0, rfl⟩
  | capture pattern callback =>
      rw [body] at made
      exact ofEach made

/-- A call of a rule's callback with matches is accounted for: what its runs did is kept,
and a failure of the last one has left one error. -/
structure Accounts (rule : Rule) (tick turn : Nat) (found : List Match) (call : Delivery) :
    Prop where
  /-- Matches are handed over up to the first failure. -/
  handed : call.delivered <+: found
  complete : call.failure = none → call.delivered = found
  /-- No run but the last fails. -/
  succeeded : ∀ run ∈ (rule.runs tick turn call.delivered).dropLast,
    run.2.outcome.failure? = none
  failure : call.failure =
    (rule.runs tick turn call.delivered).getLast?.bind fun run => run.2.outcome.failure?
  kept : call.contribution =
    World.concat ((rule.runs tick turn call.delivered).map fun run =>
      run.1.contribution run.2.actions) ++
        .ofFailure (fun failure =>
          { source := rule.source, isDynamic := true, message := failure.message,
            site := some rule.id }) call.failure

namespace Accounts

variable {rule : Rule} {tick turn : Nat} {found : List Match} {call : Delivery}

/-- The errors of a call: its reports, run by run, and then its failure, located where the
rule was registered. -/
theorem errors (accounts : rule.Accounts tick turn found call) :
    call.contribution.errors =
      ((rule.runs tick turn call.delivered).flatMap fun run =>
        run.2.reports.map fun report =>
          { source := rule.source, isDynamic := true, message := report.1,
            site := some (.item run.1.origin report.2) }) ++
        call.failure.toList.map fun failure =>
          { source := rule.source, isDynamic := true, message := failure.message,
            site := some rule.id } := by
  rw [accounts.kept, World.errors_append, World.ofFailure_errors]
  congr 1
  change List.flatMap _ _ = _
  rw [List.flatMap_map]
  refine List.flatMap_congr fun run made => ?_
  obtain ⟨turn, context⟩ := context_of_mem_runs made
  rw [run.1.contribution_errors run.2, context]
  rfl

/-- An error that a call leaves behind says where it comes from. -/
theorem located (accounts : rule.Accounts tick turn found call) {entry : ErrorEntry}
    (member : entry ∈ call.contribution.errors) : entry.site ≠ none := by
  rw [accounts.errors] at member
  rcases List.mem_append.mp member with reported | failed
  · obtain ⟨run, _, made⟩ := List.mem_flatMap.mp reported
    obtain ⟨message, _, rfl⟩ := List.mem_map.mp made
    exact Option.some_ne_none _
  · obtain ⟨failure, _, rfl⟩ := List.mem_map.mp failed
    exact Option.some_ne_none _

end Accounts

theorem deliverEach_kept (rule : Rule) (tick : Nat) (callback : Context → Match → Reaction)
    (turn : Nat) (found : List Match) :
    (rule.deliverEach tick callback turn found).contribution =
      World.concat ((rule.runsEach tick callback turn
          (rule.deliverEach tick callback turn found).delivered).map fun run =>
        run.1.contribution run.2.actions) ++
      .ofFailure rule.failureEntry (rule.deliverEach tick callback turn found).failure := by
  induction found generalizing turn with
  | nil => rfl
  | cons m rest ih =>
      rw [deliverEach]
      dsimp only
      rw [effect_eq]
      cases failed : (callback (rule.context tick turn) m).outcome.failure? with
      | some failure => simp [runsEach]
      | none =>
          dsimp only
          rw [World.ofFailure_none, World.append_empty, ih, ← World.append_assoc]
          rfl

/-- Of the runs for one match each, the last alone can fail, and does if the call does. -/
theorem deliverEach_runs (rule : Rule) (tick : Nat) (callback : Context → Match → Reaction)
    (turn : Nat) (found : List Match) :
    let call := rule.deliverEach tick callback turn found
    let runs := rule.runsEach tick callback turn call.delivered
    (∀ run ∈ runs.dropLast, run.2.outcome.failure? = none) ∧
      call.failure = runs.getLast?.bind fun run => run.2.outcome.failure? := by
  induction found generalizing turn with
  | nil => exact ⟨nofun, rfl⟩
  | cons m rest ih =>
      by_cases fails : rule.Fails tick callback turn m
      · obtain ⟨delivered, failure⟩ := deliverEach_cons_of_fails fails rest
        dsimp only
        rw [delivered, failure]
        exact ⟨nofun, rfl⟩
      · obtain ⟨delivered, failure⟩ := deliverEach_cons_of_succeeds fails rest
        obtain ⟨succeeded, last⟩ := ih (turn + 1)
        dsimp only
        rw [delivered, failure, last, runsEach, List.zipIdx_cons, List.map_cons, ← runsEach]
        -- the run for `m` succeeds; it is the last one only if no other follows
        cases runsEq : rule.runsEach tick callback (turn + 1)
            (rule.deliverEach tick callback (turn + 1) rest).delivered with
        | nil => exact ⟨nofun, (not_not.mp fails).symm⟩
        | cons run runs =>
            rw [runsEq] at succeeded
            rw [List.dropLast_cons_cons, List.getLast?_cons_cons]
            exact ⟨List.forall_mem_cons.mpr ⟨not_not.mp fails, succeeded⟩, rfl⟩

/-- Every call is accounted for. -/
theorem invoke_accounts (rule : Rule) (tick iteration turn : Nat) (found : List Match) :
    rule.Accounts tick turn found (rule.invoke tick iteration turn found).toDelivery := by
  have ofEach {callback : Context → Match → Reaction}
      (delivers : rule.deliver tick turn found = rule.deliverEach tick callback turn found)
      (runs : rule.runs tick turn = rule.runsEach tick callback turn) :
      rule.Accounts tick turn found (rule.deliver tick turn found) := by
    obtain ⟨succeeded, failure⟩ := rule.deliverEach_runs tick callback turn found
    rw [delivers]
    exact
      { handed := delivered_prefix turn found
        complete := delivered_of_done
        succeeded := by rw [runs]; exact succeeded
        failure := by rw [runs]; exact failure
        kept := by rw [runs]; exact rule.deliverEach_kept tick callback turn found }
  change rule.Accounts tick turn found (rule.deliver tick turn found)
  cases body : rule.body with
  | each patterns callback =>
      apply ofEach
      · unfold deliver; rw [body]
      · unfold runs; rw [body]
  | capture pattern callback =>
      apply ofEach
      · unfold deliver; rw [body]
      · unfold runs; rw [body]
  | grouped patterns callback =>
      have runs (delivered : List Match) : rule.runs tick turn delivered =
          [(rule.context tick 0, callback (rule.context tick 0) delivered)] := by
        unfold runs
        rw [body]
      unfold deliver
      rw [body]
      exact
        { handed := List.prefix_refl found
          complete := fun _ => rfl
          succeeded := by rw [runs]; nofun
          failure := by rw [runs]; rfl
          kept := by
            rw [runs, List.map_singleton, World.concat_cons, World.concat_nil,
              World.append_empty]
            exact rule.effect_eq _ _ }

end Rule

namespace Program

/-- The errors of a registration: its reports, each at its place, and then its failure,
which has none. -/
theorem registration_errors (program : Program) (tick : Nat) :
    let reaction := program.registrar (program.context tick)
    (program.registration tick).errors =
      (reaction.reports.map fun report =>
        { source := program.id, isDynamic := false, message := report.1,
          site := some (.item (.registration tick program.id) report.2) }) ++
        reaction.outcome.failure?.toList.map fun failure =>
          { source := program.id, isDynamic := false, site := none
            message := (Failure.registrationFailed program.id failure.cause).message } := by
  intro reaction
  rw [registration_eq, World.errors_append, Context.contribution_errors, World.ofFailure_errors]
  rfl

end Program

end Blackboard
