import Blackboard.Proofs.Query.Access
import Blackboard.Proofs.Settling.Supply
import Blackboard.Proofs.World.Contribution
import Blackboard.Scheduler

/-!
# The loop with its cells

The loop of a tick may be run on lists instead of rules that know how far they have come: one
list says which rules are retired and one how many captures they were handed, and callbacks
write to a single world, from which the loop reads back what they claimed. Rules, cells and
claims are then found by their positions, and here each of these accesses is checked. None of
them ever goes amiss, and the loop with its cells does what the loop of a tick does
(`Cells.run_ofSettling`).
-/

namespace Blackboard

/-- The state of the loop. The lists hold a cell for each rule. -/
structure Cells where
  database : Database
  /-- What callbacks have contributed, behind what there was before. -/
  world : World
  /-- The rules, each with how often it has fired. -/
  rules : List (Rule × Nat)
  retired : List Bool
  /-- How many captures of its name each rule has been handed. -/
  cursors : List Nat
  iterations : Nat := 0
  settled : Bool := false

namespace Cells

/-- A list with another value in a cell, if there is such a cell. -/
def put? {α : Type} (cells : List α) (i : Nat) (value : α) : Option (List α) :=
  if i < cells.length then some (cells.set i value) else none

/-- The claims from an index on, if there are that many. -/
def claimsSince? (world : World) (index : Nat) : Option (List Claim) :=
  if index ≤ world.claims.length then some (world.claims.drop index) else none

/-- Lets the rule at a position query if it is an ordinary rule that waits. -/
def queryAt (tick : Nat) (cells : Cells) (i : Nat) : Except Breach Cells := do
  let (rule, fired) ← Breach.cell.check cells.rules[i]?
  let retired ← Breach.cell.check cells.retired[i]?
  if retired || rule.kind == .capture then
    return cells
  else
    let (found, database) ← cells.database.checkedQuery rule.patterns
    if found.isEmpty then
      return { cells with database }
    else
      let rules ← Breach.cell.check (put? cells.rules i (rule, fired + found.length))
      let retired ← Breach.cell.check (put? cells.retired i true)
      let invocation := rule.invoke tick cells.iterations 0 found
      let world := cells.world ++ invocation.contribution
      return { cells with database, world, rules, retired }

/-- Hands the rule at a position what has been captured since it was last called, if it is a
capture rule that waits, and stores what the world has been told meanwhile. -/
def supplyAt (tick : Nat) (cells : Cells) (i : Nat) : Except Breach Cells := do
  let (rule, fired) ← Breach.cell.check cells.rules[i]?
  let retired ← Breach.cell.check cells.retired[i]?
  if retired || rule.kind != .capture then
    return cells
  else
    let pattern ← Breach.pattern.check rule.patterns.head?
    let cursor ← Breach.cell.check cells.cursors[i]?
    let captured := (cells.database.captures.under pattern.name).size
    if captured ≤ cursor then
      return cells
    else
      let pending ← Breach.captures.check (cells.database.captures.since? pattern.name cursor)
      let cursors ← Breach.cell.check (put? cells.cursors i captured)
      let rules ← Breach.cell.check (put? cells.rules i (rule, fired + pending.length))
      let invocation := rule.invoke tick cells.iterations cursor pending
      let world := cells.world ++ invocation.contribution
      let retired ← Breach.cell.check (put? cells.retired i invocation.failure.isSome)
      let made ← Breach.claims.check (claimsSince? world cells.world.claims.length)
      let (database, grew) := cells.database.learn made
      return { cells with
        database, world, rules, retired, cursors, settled := cells.settled && !grew }

/-- The start of a tick. -/
def start (database : Database) (world : World) (rules : List Rule) : Cells where
  database
  world
  rules := rules.map fun rule => (rule, 0)
  retired := List.replicate rules.length false
  cursors := List.replicate rules.length 0

/-- Visits the rules in order, by position. -/
def sweep (visit : Cells → Nat → Except Breach Cells) (cells : Cells) : Except Breach Cells :=
  (List.range cells.rules.length).foldlM visit cells

/-- One iteration. -/
def iterate (tick : Nat) (cells : Cells) : Except Breach Cells := do
  let started := { cells with iterations := cells.iterations + 1, settled := true }
  let queried ← started.sweep (queryAt tick)
  queried.sweep (supplyAt tick)

/-- Iterates until the tick has settled, or up to a ceiling, which leaves an error behind. -/
def run (tick : Nat) (ceiling : Option Nat) : Nat → Cells → Except Breach (Option Cells)
  | 0, _ => return none
  | fuel + 1, cells => do
    let cells ← cells.iterate tick
    if cells.settled then
      return some cells
    else
      match ceiling with
      | none => run tick ceiling fuel cells
      | some limit =>
        if max limit 1 ≤ cells.iterations then
          let complaint := World.ofError (Settling.limitEntry limit)
          return some { cells with world := cells.world ++ complaint }
        else
          run tick ceiling fuel cells

/-- Hands every grouped rule that has not fired an empty list of matches. -/
def close (tick : Nat) (cells : Cells) : Cells :=
  let idle := cells.rules.filter fun (rule, fired) => rule.kind == .grouped && fired == 0
  { cells with
    world := cells.world ++ World.concat (idle.map fun (rule, _) =>
      (rule.invoke tick (cells.iterations + 1) 0 []).contribution) }

/-! ## Cells and rules -/

/-- What invocations have contributed. -/
def contributed (invocations : List Invocation) : World :=
  World.concat (invocations.map fun invocation => invocation.contribution)

theorem contributed_nil : contributed [] = ∅ := rfl

theorem contributed_singleton (invocation : Invocation) :
    contributed [invocation] = invocation.contribution := World.append_empty _

theorem contributed_append (first second : List Invocation) :
    contributed (first ++ second) = contributed first ++ contributed second := by
  rw [contributed, List.map_append, World.concat_append]
  rfl

/-- The cells of rules that know how far they have come. -/
def ofProgress (database : Database) (world : World) (progress : List Progress)
    (iterations : Nat) (settled : Bool) : Cells where
  database
  world
  rules := progress.map fun here => (here.rule, here.fired)
  retired := progress.map Progress.retired
  cursors := progress.map Progress.cursor
  iterations
  settled

/-! ## One visit -/

/-- The cells of a rule hold how far it has come. -/
structure Holds (cells : Cells) (i : Nat) (here : Progress) : Prop where
  rule : cells.rules[i]? = some (here.rule, here.fired)
  retired : cells.retired[i]? = some here.retired
  cursor : cells.cursors[i]? = some here.cursor

/-- Cells with another state of the rule at a position. -/
def put (cells : Cells) (i : Nat) (here : Progress) : Cells :=
  { cells with
    rules := cells.rules.set i (here.rule, here.fired)
    retired := cells.retired.set i here.retired
    cursors := cells.cursors.set i here.cursor }

theorem put?_of_getElem? {α : Type} {cells : List α} {i : Nat} {value : α}
    (held : cells[i]? = some value) (other : α) : put? cells i other = some (cells.set i other) :=
  if_pos (List.getElem?_eq_some_iff.mp held).1

theorem set_of_getElem? {α : Type} {cells : List α} {i : Nat} {value : α}
    (held : cells[i]? = some value) : cells.set i value = cells := by
  obtain ⟨inside, rfl⟩ := List.getElem?_eq_some_iff.mp held
  exact List.set_getElem_self inside

theorem claimsSince?_append (world more : World) :
    claimsSince? (world ++ more) world.claims.length = some more.claims := by
  simp [claimsSince?]

section Visit

variable {cells : Cells} {i : Nat} {here : Progress} (holds : cells.Holds i here) (tick : Nat)
include holds

theorem Holds.put_self : cells.put i here = cells := by
  rw [put, set_of_getElem? holds.rule, set_of_getElem? holds.retired,
    set_of_getElem? holds.cursor]

/-- A visit lets the rule query, and no access goes amiss. -/
theorem Holds.queryAt_eq :
    cells.queryAt tick i =
      let next := here.query tick cells.iterations cells.database
      .ok { cells.put i next.1 with
        database := next.2.1, world := cells.world ++ contributed next.2.2 } := by
  unfold queryAt Progress.query
  simp only [holds.rule, holds.retired, Breach.check_some, Breach.ok_bind,
    Database.checkedQuery_eq, put?_of_getElem? holds.rule, put?_of_getElem? holds.retired]
  by_cases busy : (here.retired || here.rule.kind == .capture) = true
  · rw [if_pos busy, if_pos busy]
    simp only [holds.put_self, contributed_nil, World.append_empty]
    rfl
  · rw [if_neg busy, if_neg busy]
    by_cases nothing : (cells.database.query here.rule.patterns).1.isEmpty = true
    · rw [if_pos nothing, if_pos nothing]
      simp only [holds.put_self, contributed_nil, World.append_empty]
      rfl
    · rw [if_neg nothing, if_neg nothing]
      simp only [put, set_of_getElem? holds.cursor, contributed_singleton]
      rfl

theorem Holds.supplyAt_eq :
    cells.supplyAt tick i =
      let next := here.supply tick cells.iterations cells.database
      .ok { cells.put i next.1 with
        database := next.2.1, world := cells.world ++ contributed next.2.2.1
        settled := cells.settled && !next.2.2.2 } := by
  unfold supplyAt Progress.supply
  simp only [holds.rule, holds.retired, holds.cursor, Breach.check_some, Breach.ok_bind,
    put?_of_getElem? holds.rule, put?_of_getElem? holds.retired, put?_of_getElem? holds.cursor,
    claimsSince?_append]
  by_cases busy : (here.retired || here.rule.kind != .capture) = true
  · have idle : here.pending cells.database = [] := by rw [Progress.pending, if_pos busy]
    rw [if_pos busy, idle, if_pos List.isEmpty_nil]
    simp only [holds.put_self, contributed_nil, World.append_empty, Bool.not_false, Bool.and_true]
    rfl
  · have waiting : here.retired = false ∧ here.rule.kind = .capture := by simpa using busy
    obtain ⟨pattern, callback, body⟩ := Rule.exists_body_of_capture waiting.2
    have patterns : here.rule.patterns.head? = some pattern := by
      rw [Rule.patterns, body]
      rfl
    rw [if_neg busy, patterns, Breach.check_some, Breach.ok_bind]
    rcases Progress.pending_cases body waiting.1 cells.database with
      ⟨done, nothing⟩ | ⟨behind, some, since, advanced⟩
    · rw [if_pos done, nothing, if_pos List.isEmpty_nil]
      simp only [holds.put_self, contributed_nil, World.append_empty, Bool.not_false,
        Bool.and_true]
      rfl
    · rw [if_neg (Nat.not_le_of_lt behind), since, Breach.check_some, Breach.ok_bind,
        if_neg (by rwa [List.isEmpty_iff])]
      simp only [put, advanced, contributed_singleton]
      rfl

end Visit

/-- A rule without a cell is a breach. -/
example (rule : Rule) (tick : Nat) :
    queryAt tick
        { database := ∅, world := ∅, rules := [(rule, 0)], retired := [], cursors := [0] } 0 =
      .error .cell := by rfl

/-! ## Iterations -/

section Sweep

variable (tick : Nat) (db : Database) (world : World) (done rest : List Progress)
  (iterations : Nat) (settled : Bool)

theorem holds_ofProgress (here : Progress) :
    (ofProgress db world (done ++ here :: rest) iterations settled).Holds done.length here where
  rule := by simp [ofProgress]
  retired := by simp [ofProgress]
  cursor := by simp [ofProgress]

theorem length_rules_ofProgress (progress : List Progress) :
    (ofProgress db world progress iterations settled).rules.length = progress.length :=
  List.length_map _

theorem put_ofProgress (here next : Progress) :
    (ofProgress db world (done ++ here :: rest) iterations settled).put done.length next =
      ofProgress db world (done ++ next :: rest) iterations settled := by
  simp [ofProgress, put]

/-- The rules that are still to be visited query one after the other. -/
theorem foldlM_queryAt :
    (List.range' done.length rest.length).foldlM (queryAt tick)
        (ofProgress db world (done ++ rest) iterations settled) =
      let queried := Settling.queryAll tick iterations rest db
      .ok (ofProgress queried.database (world ++ contributed queried.trace)
        (done ++ queried.progress) iterations settled) := by
  -- The rules that were visited stand before the others, so the position of a visit is their
  -- number, and the cells of a rule stay as its visit left them.
  induction rest generalizing db world done with
  | nil => simp [Settling.queryAll, contributed_nil, pure, Except.pure]
  | cons here rest ih =>
      let first := here.query tick iterations db
      have further := ih first.2.1 (world ++ contributed first.2.2) (done ++ [first.1])
      simp only [List.append_assoc, List.singleton_append, List.length_append,
        List.length_singleton] at further
      rw [List.length_cons, List.range'_succ, List.foldlM_cons,
        (holds_ofProgress db world done rest iterations settled here).queryAt_eq tick,
        Breach.ok_bind, put_ofProgress, Settling.queryAll_cons]
      dsimp only
      rw [contributed_append, ← World.append_assoc]
      exact further

/-- The rules that are still to be visited are supplied one after the other. -/
theorem foldlM_supplyAt :
    (List.range' done.length rest.length).foldlM (supplyAt tick)
        (ofProgress db world (done ++ rest) iterations settled) =
      let supplied := Settling.supplyAll tick iterations rest db
      .ok (ofProgress supplied.database (world ++ contributed supplied.trace)
        (done ++ supplied.progress) iterations (settled && !supplied.grew)) := by
  induction rest generalizing db world done settled with
  | nil => simp [Settling.supplyAll, contributed_nil, pure, Except.pure]
  | cons here rest ih =>
      let first := here.supply tick iterations db
      have further := ih first.2.1 (world ++ contributed first.2.2.1) (done ++ [first.1])
        (settled && !first.2.2.2)
      simp only [List.append_assoc, List.singleton_append, List.length_append,
        List.length_singleton] at further
      rw [List.length_cons, List.range'_succ, List.foldlM_cons,
        (holds_ofProgress db world done rest iterations settled here).supplyAt_eq tick,
        Breach.ok_bind, put_ofProgress, Settling.supplyAll_cons]
      dsimp only
      rw [contributed_append, ← World.append_assoc, Bool.not_or, ← Bool.and_assoc]
      exact further

theorem sweep_queryAt (progress : List Progress) :
    (ofProgress db world progress iterations settled).sweep (queryAt tick) =
      let queried := Settling.queryAll tick iterations progress db
      .ok (ofProgress queried.database (world ++ contributed queried.trace) queried.progress
        iterations settled) := by
  rw [sweep, length_rules_ofProgress, List.range_eq_range']
  exact foldlM_queryAt tick db world [] progress iterations settled

theorem sweep_supplyAt (progress : List Progress) :
    (ofProgress db world progress iterations settled).sweep (supplyAt tick) =
      let supplied := Settling.supplyAll tick iterations progress db
      .ok (ofProgress supplied.database (world ++ contributed supplied.trace) supplied.progress
        iterations (settled && !supplied.grew)) := by
  rw [sweep, length_rules_ofProgress, List.range_eq_range']
  exact foldlM_supplyAt tick db world [] progress iterations settled

end Sweep

/-- The cells of a state of the loop, and the world that callbacks have written to. -/
def ofSettling (world : World) (s : Settling) : Cells :=
  ofProgress s.database (world ++ contributed s.trace) s.progress s.iterations s.settled

theorem start_eq_ofSettling (database : Database) (world : World) (rules : List Rule) :
    start database world rules = ofSettling world (Settling.start database rules) := by
  simp [start, ofSettling, ofProgress, Settling.start, Progress.ofRule, contributed_nil,
    Function.comp_def]

/-- An iteration has no breach, and it is that of the loop. -/
theorem iterate_ofSettling (tick : Nat) (world : World) (s : Settling) :
    (ofSettling world s).iterate tick = .ok (ofSettling world (s.iterate tick)) := by
  let iteration := s.iterations + 1
  let queried := Settling.queryAll tick iteration s.progress s.database
  let supplied := Settling.supplyAll tick iteration queried.progress queried.database
  have started : { ofSettling world s with iterations := iteration, settled := true } =
      ofProgress s.database (world ++ contributed s.trace) s.progress iteration true := rfl
  have ended : contributed (s.iterate tick).trace =
      contributed s.trace ++ contributed queried.trace ++ contributed supplied.trace := by
    rw [← contributed_append, ← contributed_append]
    rfl
  rw [iterate]
  change (sweep (queryAt tick) { ofSettling world s with
    iterations := iteration, settled := true } >>= sweep (supplyAt tick)) = _
  rw [started, sweep_queryAt, Breach.ok_bind, sweep_supplyAt, ofSettling, ended,
    ← World.append_assoc, ← World.append_assoc]
  rfl

/-- What the loop leaves in the world if it ends without having settled. -/
def complaint (ceiling : Option Nat) (s : Settling) : World :=
  match ceiling with
  | some limit => if s.settled then ∅ else World.ofError (Settling.limitEntry limit)
  | none => ∅

/-- The cells at the end of the loop. -/
def ended (world : World) (ceiling : Option Nat) (s : Settling) : Cells :=
  { ofSettling world s with world := world ++ contributed s.trace ++ complaint ceiling s }

theorem ended_of_settled {s : Settling} (settled : s.settled = true) (world : World)
    (ceiling : Option Nat) : ended world ceiling s = ofSettling world s := by
  have silent : complaint ceiling s = ∅ := by
    cases ceiling with
    | none => rfl
    | some limit => exact if_pos settled
  rw [ended, silent, World.append_empty]
  rfl

theorem ended_of_unsettled {s : Settling} (unsettled : s.settled = false) (world : World)
    (limit : Nat) :
    ended world (some limit) s =
      { ofSettling world s with
        world := (ofSettling world s).world ++ World.ofError (Settling.limitEntry limit) } := by
  have loud : complaint (some limit) s = World.ofError (Settling.limitEntry limit) :=
    if_neg (by simp [unsettled])
  rw [ended, loud]
  rfl

/-- The loop with its cells has no breach, and it is the loop of a tick. -/
theorem run_ofSettling (tick : Nat) (ceiling : Option Nat) (fuel : Nat) (world : World)
    (s : Settling) :
    (ofSettling world s).run tick ceiling fuel =
      .ok ((s.run tick ceiling fuel).map (ended world ceiling)) := by
  induction fuel generalizing s with
  | zero => rfl
  | succ fuel ih =>
      rw [run, iterate_ofSettling, Breach.ok_bind, Settling.run]
      dsimp only
      generalize s.iterate tick = next
      have sameSettled : (ofSettling world next).settled = next.settled := rfl
      have sameIterations : (ofSettling world next).iterations = next.iterations := rfl
      rw [sameSettled, sameIterations, ih]
      cases settled : next.settled with
      | true =>
          rw [if_pos rfl, Bool.true_or, if_pos rfl, Option.map_some, ended_of_settled settled]
          rfl
      | false =>
          rw [if_neg Bool.false_ne_true, Bool.false_or]
          cases ceiling with
          | none => rfl
          | some limit =>
              by_cases reached : max limit 1 ≤ next.iterations
              · rw [Option.any_some, if_pos (decide_eq_true reached), Option.map_some,
                  ended_of_unsettled settled]
                dsimp only
                rw [if_pos reached, sameSettled, settled]
                rfl
              · rw [Option.any_some, if_neg (by rwa [decide_eq_true_eq])]
                exact if_neg reached

/-- Once the cells are closed, what the rules contributed stands behind what there was before. -/
theorem close_ended (tick : Nat) (ceiling : Option Nat) (world : World) (s : Settling) :
    (ended world ceiling s).close tick =
      { ofSettling world s with world := world ++ s.contribution tick ceiling } := by
  have idle : contributed (s.close tick) =
      World.concat (((ended world ceiling s).rules.filter fun (rule, fired) =>
        rule.kind == .grouped && fired == 0).map fun (rule, _) =>
          (rule.invoke tick (s.iterations + 1) 0 []).contribution) := by
    change _ = World.concat (List.map _ (List.filter _ (s.progress.map _)))
    rw [List.filter_map, List.map_map, contributed, Settling.close, List.map_map]
    rfl
  have contribution : s.contribution tick ceiling =
      contributed s.trace ++ complaint ceiling s ++ contributed (s.close tick) := by
    cases ceiling <;> rfl
  rw [contribution, ← World.append_assoc, ← World.append_assoc, idle]
  rfl

end Cells

end Blackboard
