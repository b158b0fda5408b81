import Blackboard.Proofs.Scheduler.Templates
import Blackboard.Proofs.Settling.Cells

/-!
# Ticks have no breach

A tick counts on the rules of its world: it registers the template of every capture rule, finds
the captures for it by its first pattern, and keeps cells for all rules. Here a tick is run
with all of this checked. Since registrations that would break it are refused, and leave the
world as it was, a tick of a reachable scheduler never has a breach, whatever the callbacks of
its programs do (`Scheduler.Reachable.ticks_without_breach`).
-/

namespace Blackboard

/-! ## Rules that a tick can count on -/

/-- A rule waits for something, and a capture rule has a template with a slot. -/
structure RuleBody.WellFormed (body : RuleBody) : Prop where
  waits : body.patterns ≠ []
  slot : body.kind = .capture → ∃ template, body.patterns.head? = some template ∧
    template.hasSlot = true

namespace RuleBody

/-- Precisely the other rules are refused. -/
theorem refusal?_eq_none_iff (body : RuleBody) : body.refusal? = none ↔ body.WellFormed := by
  cases body with
  | each patterns callback | grouped patterns callback =>
      have waits : (if patterns.isEmpty then some Refusal.emptyRule else none) = none ↔
          patterns ≠ [] := by simp
      exact waits.trans ⟨fun some => ⟨some, nofun⟩, WellFormed.waits⟩
  | capture pattern callback =>
      rw [refusal?, ite_eq_left_iff]
      constructor
      · intro accepted
        refine ⟨List.cons_ne_nil _ _, fun _ => ⟨pattern, rfl, ?_⟩⟩
        by_contra missing
        cases accepted missing
      · intro wellFormed missing
        obtain ⟨template, head, slot⟩ := wellFormed.slot rfl
        obtain rfl := Option.some.inj head
        exact absurd slot missing

end RuleBody

/-- A refused registration leaves the world as it was. -/
theorem Context.contribution_refused (context : Context) (actions : List Action)
    {body : RuleBody} (refused : body.refusal? ≠ none) :
    context.contribution (actions ++ [.register body]) = context.contribution actions := by
  have none (index : Nat) : context.rule? index (.register body) = none :=
    if_neg (by rwa [Option.isNone_iff_eq_none])
  apply World.ext
  · simp [contribution, claim?]
  · simp [contribution, List.zipIdx_append, none]
  · simp [contribution, List.zipIdx_append, error?]
  · simp [contribution, log?]

namespace Database

/-- Registers the templates of capture rules, none of which may be refused. -/
def checkedTemplates (db : Database) (rules : List Rule) : Except Breach Database :=
  rules.foldlM (fun db rule => match rule.body with
    | .capture pattern _ => (db.register pattern).mapError fun _ => .template
    | _ => return db) db

/-- A template with a slot is accepted. -/
theorem exists_register {template : Claim} (slot : template.hasSlot = true) (db : Database) :
    ∃ registered, db.register template = .ok registered := by
  rw [register, Captures.register, if_pos slot]
  exact ⟨_, rfl⟩

theorem checkedTemplates_eq {rules : List Rule} (wellFormed : ∀ rule ∈ rules, rule.body.WellFormed)
    (db : Database) : db.checkedTemplates rules = .ok (db.registerTemplates rules) := by
  induction rules generalizing db with
  | nil => rfl
  | cons rule rules ih =>
      obtain ⟨here, further⟩ := List.forall_mem_cons.mp wellFormed
      unfold checkedTemplates registerTemplates
      rw [List.foldlM_cons, List.foldl_cons]
      cases body : rule.body with
      | each patterns callback => exact ih further db
      | grouped patterns callback => exact ih further db
      | capture pattern callback =>
          rw [body] at here
          obtain ⟨template, head, slot⟩ := here.slot rfl
          obtain rfl := Option.some.inj head
          obtain ⟨extended, accepted⟩ := exists_register slot db
          dsimp only
          rw [accepted]
          exact ih further extended

/-- A template without a slot is a breach. -/
example (id : Origin) (callback : Context → Match → Reaction) :
    (∅ : Database).checkedTemplates
        [{ id, body := .capture { name := "@ is cool", args := [.var "x"] } callback,
           source := .core, isDynamic := true }] = .error .template := by rfl

end Database

namespace Scheduler

/-! ## Checked ticks -/

/-- The end of a tick whose cells are closed. -/
def conclusion (s : Scheduler) (board : Board) (cells : Cells) : TickReport × Scheduler :=
  let tick := s.ticks + 1
  ({ tick
     iterations := cells.iterations
     settled := cells.settled
     rulesFired := cells.rules.countP fun (_, fired) => 0 < fired
     facts := cells.database.store.size
     errors := cells.world.errors.length },
   { s with
     ticks := tick
     board := { board with world := cells.world }
     database := cells.database
     diagnostics := Report.collect tick board.roster.running cells.world cells.rules })

/-- One tick with its accesses checked. -/
def checkedTick? (s : Scheduler) (patience : Nat) (millis : Int64) (programs : List Program) :
    Except Breach (Option (TickReport × Scheduler)) := do
  let tick := s.ticks + 1
  let board := s.synced programs
  let facts := (∅ : Database).insertAll (s.initialFacts board millis programs)
  let database ← facts.checkedTemplates board.world.rules
  let cells := Cells.start database board.world.retainStatic board.world.rules
  let ended ← cells.run tick s.limit (s.limit.elim patience fun limit => max limit 1)
  return ended.map fun cells => s.conclusion board (cells.close tick)

theorem conclusion_close_ended (s : Scheduler) (board : Board) (settling : Settling) :
    s.conclusion board
        ((Cells.ended board.world.retainStatic s.limit settling).close (s.ticks + 1)) =
      s.conclude board settling := by
  have fired : (Cells.ofSettling board.world.retainStatic settling).rules.countP
      (fun (_, fired) => 0 < fired) =
        settling.progress.countP fun progress => 0 < progress.fired := List.countP_map
  rw [Cells.close_ended, conclusion, conclude]
  dsimp only
  rw [fired]
  rfl

/-- A tick whose rules are well-formed has no breach. -/
theorem checkedTick?_eq {s : Scheduler} {programs : List Program}
    (wellFormed : ∀ rule ∈ (s.synced programs).world.rules, rule.body.WellFormed)
    (patience : Nat) (millis : Int64) :
    s.checkedTick? patience millis programs = .ok (s.tick? patience millis programs) := by
  have concluded : (fun cells => s.conclusion (s.synced programs) (cells.close (s.ticks + 1))) ∘
      Cells.ended (s.synced programs).world.retainStatic s.limit =
        s.conclude (s.synced programs) := funext (s.conclusion_close_ended (s.synced programs))
  unfold checkedTick? tick?
  dsimp only
  rw [Database.checkedTemplates_eq wellFormed, Breach.ok_bind, Cells.start_eq_ofSettling,
    Cells.run_ofSettling, Breach.ok_bind, Option.map_map, concluded]
  rfl

/-- Nothing goes amiss in the ticks of a scheduler. -/
structure Unbreached (s : Scheduler) : Prop where
  /-- With its accesses checked, a tick has no breach and comes to the same. -/
  tick (patience : Nat) (millis : Int64) (programs : List Program) :
    s.checkedTick? patience millis programs = .ok (s.tick? patience millis programs)
  /-- Queries have no breach on any store, under any matches. -/
  queries (store : Store) (patterns : List Claim) (contexts : List Match) :
    store.checkedJoinAll patterns contexts = .ok (store.joinAll patterns contexts)
  /-- The rules of the world are well-formed. -/
  rules : ∀ rule ∈ s.board.world.rules, rule.body.WellFormed
  /-- So are those of a tick, which has brought its programs in line. -/
  synced (programs : List Program) :
    ∀ rule ∈ (s.synced programs).world.rules, rule.body.WellFormed
  /-- A capture rule has a first pattern, which any database accepts as a template. -/
  templates (programs : List Program) :
    ∀ rule ∈ (s.synced programs).world.rules, rule.kind = .capture →
      ∃ template, rule.patterns.head? = some template ∧
        ∀ db : Database, ∃ registered, db.register template = .ok registered
  /-- Precisely the rules that are not well-formed are refused. -/
  refusal (body : RuleBody) : body.refusal? = none ↔ body.WellFormed
  /-- A refused registration leaves the world as it was. -/
  refused (context : Context) (actions : List Action) (body : RuleBody) :
    body.refusal? ≠ none →
      context.contribution (actions ++ [.register body]) = context.contribution actions

/-- No tick of a reachable scheduler has a breach. -/
theorem Reachable.ticks_without_breach {s : Scheduler} (reachable : s.Reachable) :
    s.Unbreached := by
  have synced (programs : List Program) :
      ∀ rule ∈ (s.synced programs).world.rules, rule.body.WellFormed := fun rule listed =>
    rule.body.refusal?_eq_none_iff.mp (reachable.admitted_synced programs rule listed)
  exact
    { tick := fun patience millis programs => checkedTick?_eq (synced programs) patience millis
      queries := Store.checkedJoinAll_eq
      rules := fun rule listed =>
        rule.body.refusal?_eq_none_iff.mp (reachable.admitted rule listed)
      synced := synced
      templates := by
        intro programs rule listed capture
        obtain ⟨template, head, slot⟩ := (synced programs rule listed).slot capture
        exact ⟨template, head, Database.exists_register slot⟩
      refusal := RuleBody.refusal?_eq_none_iff
      refused := fun context actions _ refused => context.contribution_refused actions refused }

/-- Facts of one name and three lengths, a capture rule that breaks down after it has claimed
something, and registrations that are refused, one of them in a callback. -/
theorem ticks_without_breach_of_mixed_lengths :
    let cool (args : List Arg) : Claim := { name := "@ is cool", args }
    let kids (parent number : Arg) : Claim := { name := "@ has @ kids", args := [parent, number] }
    let program : Program :=
      { id := ⟨"1"⟩, codeHash := ⟨"v1"⟩
        registrar := fun _ =>
          ⟨[ .register (.each [] fun _ _ => .idle),
             .register (.capture (kids (.var "p") (.var "n")) fun _ _ => .idle),
             .register (.each [cool [.var "x", .var "x"], kids (.var "x") (.var "n")] fun _ _ =>
               ⟨[ .register (.grouped [] fun _ _ => .idle),
                  .register (.each [cool [.var "x"]] fun _ _ => .idle) ], .done⟩),
             .register (.capture (kids (.var "p") (.var "?n")) fun _ _ =>
               ⟨[.assert (.fact "@ has @ kids" [.text "Bart", .int 3])], .panicked none⟩) ],
            .done⟩ }
    let s : Scheduler :=
      { settings := {}
        baseFacts := fun _ _ =>
          [ .fact "@ is cool" [], .fact "@ is cool" [.text "Bart"],
            .fact "@ is cool" [.text "Bart", .text "Bart"] ] }
    ∃ report s', s.checkedTick? 2 0 [program] = .ok (some (report, s')) ∧
      report.iterations = 2 ∧ report.errors = 1 ∧
      s'.board.world.rules.map Rule.kind = [.each, .capture, .each] ∧
      s'.Unbreached := by
  intro cool kids program s
  have reachable : s.Reachable := .initial s.settings s.baseFacts
  have evaluated : ((s.tick? 2 0 [program]).any fun (report, s') =>
      report.iterations == 2 && report.errors == 1 &&
        s'.board.world.rules.map Rule.kind == [.each, .capture, .each]) = true := by
    decide +kernel
  obtain ⟨⟨report, s'⟩, ticked, shown⟩ := (Option.any_eq_true _ _).mp evaluated
  rw [Bool.and_eq_true, Bool.and_eq_true] at shown
  refine ⟨report, s', ?_, eq_of_beq shown.1.1, eq_of_beq shown.1.2, eq_of_beq shown.2,
    (reachable.ticked ticked).ticks_without_breach⟩
  rw [reachable.ticks_without_breach.tick, ticked]

end Scheduler

end Blackboard
