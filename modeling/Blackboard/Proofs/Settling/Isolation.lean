import Blackboard.Proofs.Settling.Step
import Blackboard.Proofs.World.Contribution
import Blackboard.Scheduler

/-!
# Ordinary callbacks do not influence their tick

What an ordinary rule's callback does is for the world after the tick. If the
callback is replaced by any other (`Rule.Recasts`), the tick takes the same
course: the two runs go through states that differ in nothing but the rule
itself and its one call (`Settling.Twins`), in which it is handed the same
matches. The relation is kept by each phase of an iteration, hence by a run, and
it is what isolation asks for at the end (`Settling.run_isolated`).
-/

namespace Blackboard

namespace Rule

/-- The same rule with a callback of its own. -/
structure Recasts (other rule : Rule) : Prop where
  id : other.id = rule.id
  source : other.source = rule.source
  isDynamic : other.isDynamic = rule.isDynamic
  kind : other.kind = rule.kind
  patterns : other.patterns = rule.patterns

end Rule

/-- Lists of calls that differ in one place, where a rule is called in the one
and its counterpart in the other, with the same matches. -/
def Swapped (tick : Nat) (rule other : Rule) (first second : List Invocation) : Prop :=
  ∃ before iteration found after,
    first = before ++ rule.invoke tick iteration 0 found :: after ∧
      second = before ++ other.invoke tick iteration 0 found :: after

/-- Worlds that differ in one stretch, which is what one call of a rule contributes
in the one and the same call of its counterpart in the other. -/
def World.Swapped (tick : Nat) (rule other : Rule) (first second : World) : Prop :=
  ∃ before iteration found after,
    first = before ++ (rule.invoke tick iteration 0 found).contribution ++ after ∧
      second = before ++ (other.invoke tick iteration 0 found).contribution ++ after

section Swapped

variable {tick : Nat} {rule other : Rule}

theorem Swapped.append_right {first second : List Invocation}
    (swapped : Swapped tick rule other first second) (calls : List Invocation) :
    Swapped tick rule other (first ++ calls) (second ++ calls) := by
  rcases swapped with ⟨before, iteration, found, after, rfl, rfl⟩
  exact ⟨before, iteration, found, after ++ calls, by simp, by simp⟩

theorem Swapped.append_left {first second : List Invocation}
    (swapped : Swapped tick rule other first second) (calls : List Invocation) :
    Swapped tick rule other (calls ++ first) (calls ++ second) := by
  rcases swapped with ⟨before, iteration, found, after, rfl, rfl⟩
  exact ⟨calls ++ before, iteration, found, after, by simp, by simp⟩

theorem World.Swapped.append_right {first second : World}
    (swapped : World.Swapped tick rule other first second) (world : World) :
    World.Swapped tick rule other (first ++ world) (second ++ world) := by
  rcases swapped with ⟨before, iteration, found, after, rfl, rfl⟩
  exact ⟨before, iteration, found, after ++ world, World.append_assoc .., World.append_assoc ..⟩

theorem World.Swapped.append_left {first second : World}
    (swapped : World.Swapped tick rule other first second) (world : World) :
    World.Swapped tick rule other (world ++ first) (world ++ second) := by
  rcases swapped with ⟨before, iteration, found, after, rfl, rfl⟩
  refine ⟨world ++ before, iteration, found, after, ?_, ?_⟩ <;> simp only [World.append_assoc]

/-- Swapped calls contribute swapped worlds. -/
theorem Swapped.world {first second : List Invocation}
    (swapped : Swapped tick rule other first second) :
    World.Swapped tick rule other
      (World.concat (first.map fun invocation => invocation.contribution))
      (World.concat (second.map fun invocation => invocation.contribution)) := by
  rcases swapped with ⟨before, iteration, found, after, rfl, rfl⟩
  refine ⟨World.concat (before.map fun invocation => invocation.contribution), iteration, found,
    World.concat (after.map fun invocation => invocation.contribution), ?_, ?_⟩
  all_goals
    rw [List.map_append, List.map_cons, World.concat_append, World.concat_cons,
      World.append_assoc]

end Swapped

namespace Progress

/-- The same progress of a rule with another callback. -/
def recast (progress : Progress) (other : Rule) : Progress := { progress with rule := other }

/-- An ordinary rule with another callback queries in the same way: it is left
waiting, or it retires with the same matches. -/
theorem query_recast {progress : Progress} {other : Rule} (recasts : other.Recasts progress.rule)
    (tick iteration : Nat) (db : Database) :
    ∃ after db', after.rule = progress.rule ∧
      ((after = progress ∧ progress.query tick iteration db = (after, db', []) ∧
          (progress.recast other).query tick iteration db = (after.recast other, db', [])) ∨
        ∃ found, found ≠ [] ∧ progress.retired = false ∧ after = progress.retire found ∧
          progress.query tick iteration db =
            (after, db', [progress.rule.invoke tick iteration 0 found]) ∧
          (progress.recast other).query tick iteration db =
            (after.recast other, db', [other.invoke tick iteration 0 found])) := by
  have sameWaiting : (progress.recast other).Waiting ↔ progress.Waiting := by
    simp [Waiting, recast, recasts.kind]
  have samePatterns : (progress.recast other).rule.patterns = progress.rule.patterns :=
    recasts.patterns
  have otherCases := query_cases tick iteration (progress.recast other) db
  rw [sameWaiting, samePatterns] at otherCases
  rcases query_cases tick iteration progress db with
    ⟨passed, result⟩ | ⟨waiting, nothing, result⟩ | ⟨waiting, something, result⟩
  · rcases otherCases with ⟨_, otherResult⟩ | ⟨waiting, _⟩ | ⟨waiting, _⟩
    · exact ⟨progress, db, rfl, .inl ⟨rfl, result, otherResult⟩⟩
    · exact absurd waiting passed
    · exact absurd waiting passed
  · rcases otherCases with ⟨passed, _⟩ | ⟨_, _, otherResult⟩ | ⟨_, something, _⟩
    · exact absurd waiting passed
    · exact ⟨progress, _, rfl, .inl ⟨rfl, result, otherResult⟩⟩
    · exact absurd nothing something
  · rcases otherCases with ⟨passed, _⟩ | ⟨_, nothing, _⟩ | ⟨_, _, otherResult⟩
    · exact absurd waiting passed
    · exact absurd nothing something
    · exact ⟨progress.retire _, _, rfl,
        .inr ⟨_, something, waiting.1, rfl, result, otherResult⟩⟩

end Progress

namespace Settling

/-! ## Passes over two lists of rules -/

theorem queryAll_append (tick iteration : Nat) (first second : List Progress) (db : Database) :
    queryAll tick iteration (first ++ second) db =
      let before := queryAll tick iteration first db
      let after := queryAll tick iteration second before.database
      { after with
        progress := before.progress ++ after.progress
        trace := before.trace ++ after.trace } := by
  induction first generalizing db with
  | nil => rfl
  | cons here rest ih =>
      rw [List.cons_append, queryAll_cons, queryAll_cons]
      simp only [ih, List.cons_append, List.append_assoc]

theorem supplyAll_append (tick iteration : Nat) (first second : List Progress) (db : Database) :
    supplyAll tick iteration (first ++ second) db =
      let before := supplyAll tick iteration first db
      let after := supplyAll tick iteration second before.database
      { after with
        progress := before.progress ++ after.progress
        trace := before.trace ++ after.trace
        grew := before.grew || after.grew } := by
  induction first generalizing db with
  | nil => rfl
  | cons here rest ih =>
      rw [List.cons_append, supplyAll_cons, supplyAll_cons]
      simp only [ih, List.cons_append, List.append_assoc, Bool.or_assoc]

/-- An iteration around the place of an ordinary rule: all that it depends on is
the database after the rule has queried, and all that shows the rule itself are
its own progress and its own calls. -/
theorem iterate_around {tick : Nat} {s : Settling} {before after : List Progress}
    {here here' : Progress} {db : Database} {own : List Invocation}
    (split : s.progress = before ++ here :: after) (ordinary : here'.rule.kind ≠ .capture)
    (queried : here.query tick (s.iterations + 1)
      (queryAll tick (s.iterations + 1) before s.database).database = (here', db, own)) :
    s.iterate tick =
      let iteration := s.iterations + 1
      let earlier := queryAll tick iteration before s.database
      let later := queryAll tick iteration after db
      let supplied := supplyAll tick iteration earlier.progress later.database
      let last := supplyAll tick iteration later.progress supplied.database
      { database := last.database
        progress := supplied.progress ++ here' :: last.progress
        iterations := iteration
        settled := !(supplied.grew || last.grew)
        trace := s.trace ++ (earlier.trace ++ (own ++ later.trace)) ++
          (supplied.trace ++ last.trace) } := by
  simp only [iterate, split, queryAll_append, queryAll_cons, queried, supplyAll_append,
    supplyAll_cons, Progress.supply_of_ordinary ordinary, Bool.false_or, List.nil_append]

/-! ## Two runs side by side -/

/-- Two states of a tick that differ in nothing but the callback of a rule,
between `earlier` and `later` ones, and what came of calling it. Either it has
not been called in either run, or it has been called once in both. -/
structure Twins (tick : Nat) (earlier : List Rule) (rule other : Rule) (later : List Rule)
    (s t : Settling) : Prop where
  database : t.database = s.database
  iterations : t.iterations = s.iterations
  settled : t.settled = s.settled
  split : ∃ before here after,
    s.progress = before ++ here :: after ∧ t.progress = before ++ here.recast other :: after ∧
      before.map Progress.rule = earlier ∧ here.rule = rule ∧ after.map Progress.rule = later ∧
      ((here.retired = false ∧ here.fired = 0 ∧ t.trace = s.trace) ∨
        (here.retired = true ∧ here.fired ≠ 0 ∧ Swapped tick rule other s.trace t.trace))

section Twins

variable {tick : Nat} {earlier later : List Rule} {rule other : Rule}

theorem Twins.start (tick : Nat) (db : Database) (earlier : List Rule) (rule other : Rule)
    (later : List Rule) :
    Twins tick earlier rule other later (start db (earlier ++ rule :: later))
      (start db (earlier ++ other :: later)) where
  database := rfl
  iterations := rfl
  settled := rfl
  split := by
    refine ⟨earlier.map Progress.ofRule, Progress.ofRule rule, later.map Progress.ofRule, ?_, ?_,
      map_rule_ofRule earlier, rfl, map_rule_ofRule later, .inl ⟨rfl, rfl, rfl⟩⟩
    · exact List.map_append
    · exact List.map_append

/-- An iteration keeps two runs side by side. -/
theorem Twins.iterate {s t : Settling} (twins : Twins tick earlier rule other later s t)
    (ordinary : rule.kind ≠ .capture) (recasts : other.Recasts rule) :
    Twins tick earlier rule other later (s.iterate tick) (t.iterate tick) := by
  rcases twins.split with ⟨before, here, after, splitS, splitT, rfl, rfl, rfl, called⟩
  obtain ⟨here', db, sameRule, queried⟩ := here.query_recast recasts tick (s.iterations + 1)
    (queryAll tick (s.iterations + 1) before s.database).database
  have ordinary' : here'.rule.kind ≠ .capture := sameRule ▸ ordinary
  have otherOrdinary : (here'.recast other).rule.kind ≠ .capture := recasts.kind ▸ ordinary
  rcases queried with
    ⟨rfl, queriedS, queriedT⟩ | ⟨found, something, waiting, rfl, queriedS, queriedT⟩
  all_goals
    rw [← twins.iterations, ← twins.database] at queriedT
    rw [iterate_around splitS ordinary' queriedS, iterate_around splitT otherOrdinary queriedT,
      twins.iterations, twins.database]
    refine ⟨rfl, rfl, rfl, _, _, _, rfl, rfl, (supplyAll_rules ..).trans (queryAll_rules ..), rfl,
      (supplyAll_rules ..).trans (queryAll_rules ..), ?_⟩
  · rcases called with ⟨waiting, unfired, sameTrace⟩ | ⟨retired, fired, swapped⟩
    · exact .inl ⟨waiting, unfired, by rw [sameTrace]⟩
    · exact .inr ⟨retired, fired, (swapped.append_right _).append_right _⟩
  · refine .inr ⟨rfl, ?_, ?_⟩
    · have := List.length_pos_iff.mpr something
      simp only [Progress.retire]
      omega
    · rcases called with ⟨_, _, sameTrace⟩ | ⟨retired, _⟩
      · rw [sameTrace]
        refine Swapped.append_right ((Swapped.append_left ?_ _).append_left _) _
        exact ⟨[], s.iterations + 1, found, _, rfl, rfl⟩
      · rw [waiting] at retired
        cases retired

/-- Two runs from states that are side by side end there, or neither ends. -/
theorem Twins.run {s t : Settling} (twins : Twins tick earlier rule other later s t)
    (ordinary : rule.kind ≠ .capture) (recasts : other.Recasts rule) (ceiling : Option Nat)
    (fuel : Nat) :
    Option.Rel (Twins tick earlier rule other later) (s.run tick ceiling fuel)
      (t.run tick ceiling fuel) := by
  induction fuel generalizing s t with
  | zero => exact .none
  | succ fuel ih =>
      have next := twins.iterate ordinary recasts
      rw [Settling.run, Settling.run, next.settled, next.iterations]
      split
      · exact .some next
      · exact ih next

/-- The rule is called in the loop in both runs, or when the tick is closed in
both, or in neither. -/
theorem Twins.calls {s t : Settling} (twins : Twins tick earlier rule other later s t)
    (recasts : other.Recasts rule) :
    (Swapped tick rule other s.trace t.trace ∧ t.close tick = s.close tick) ∨
      (t.trace = s.trace ∧ Swapped tick rule other (s.close tick) (t.close tick)) ∨
      (t.trace = s.trace ∧ t.close tick = s.close tick) := by
  rcases twins.split with ⟨before, here, after, splitS, splitT, rfl, rfl, rfl, called⟩
  rw [close_eq_flatMap, close_eq_flatMap, splitS, splitT, twins.iterations]
  simp only [List.flatMap_append, List.flatMap_cons]
  rcases called with ⟨_, unfired, sameTrace⟩ | ⟨_, fired, swapped⟩
  · by_cases grouped : here.rule.kind = .grouped
    · have own : here.idleCalls tick (s.iterations + 1) =
          [here.rule.invoke tick (s.iterations + 1) 0 []] := if_pos ⟨grouped, unfired⟩
      have otherOwn : (here.recast other).idleCalls tick (s.iterations + 1) =
          [other.invoke tick (s.iterations + 1) 0 []] :=
        if_pos ⟨recasts.kind.trans grouped, unfired⟩
      rw [own, otherOwn]
      exact .inr (.inl ⟨sameTrace, Swapped.append_left ⟨[], _, [], _, rfl, rfl⟩ _⟩)
    · have otherNot : other.kind ≠ .grouped := recasts.kind ▸ grouped
      rw [here.idleCalls_of_busy fun idle => grouped idle.1,
        (here.recast other).idleCalls_of_busy fun idle => otherNot idle.1]
      exact .inr (.inr ⟨sameTrace, rfl⟩)
  · have own : here.idleCalls tick (s.iterations + 1) = [] :=
      here.idleCalls_of_busy (fun idle => fired idle.2) tick _
    have otherOwn : (here.recast other).idleCalls tick (s.iterations + 1) = [] :=
      (here.recast other).idleCalls_of_busy (fun idle => fired idle.2) tick _
    rw [own, otherOwn]
    exact .inl ⟨swapped, rfl⟩

/-! ## Isolation -/

/-- What isolation asks for: two ends of a tick agree in the facts, the captures
and all counts. The rule is called once in both runs or in neither, with the same
matches, and every other call is the same. Whatever the world was before, it
differs afterwards in nothing but the entries of that call. -/
structure Isolated (tick : Nat) (earlier : List Rule) (rule other : Rule) (later : List Rule)
    (s t : Settling) : Prop where
  database : t.database = s.database
  iterations : t.iterations = s.iterations
  settled : t.settled = s.settled
  progress : ∃ before here after,
    s.progress = before ++ here :: after ∧ t.progress = before ++ here.recast other :: after ∧
      before.map Progress.rule = earlier ∧ here.rule = rule ∧ after.map Progress.rule = later
  calls :
    (Swapped tick rule other s.trace t.trace ∧ t.close tick = s.close tick) ∨
      (t.trace = s.trace ∧ Swapped tick rule other (s.close tick) (t.close tick)) ∨
      (t.trace = s.trace ∧ t.close tick = s.close tick)
  world : ∀ (world : World) (limit : Option Nat),
    world ++ t.contribution tick limit = world ++ s.contribution tick limit ∨
      World.Swapped tick rule other (world ++ s.contribution tick limit)
        (world ++ t.contribution tick limit)

theorem Twins.isolated {s t : Settling} (twins : Twins tick earlier rule other later s t)
    (recasts : other.Recasts rule) : Isolated tick earlier rule other later s t where
  database := twins.database
  iterations := twins.iterations
  settled := twins.settled
  progress := by
    rcases twins.split with ⟨before, here, after, splitS, splitT, earlierEq, hereEq, laterEq, _⟩
    exact ⟨before, here, after, splitS, splitT, earlierEq, hereEq, laterEq⟩
  calls := twins.calls recasts
  world := by
    intro world limit
    unfold contribution
    rw [twins.settled]
    rcases twins.calls recasts with
      ⟨swapped, sameClose⟩ | ⟨sameTrace, swapped⟩ | ⟨sameTrace, sameClose⟩
    · rw [sameClose]
      exact .inr (((swapped.world.append_right _).append_right _).append_left world)
    · rw [sameTrace]
      exact .inr ((swapped.world.append_left _).append_left world)
    · rw [sameTrace, sameClose]
      exact .inl rfl

/-- Replacing the callback of an ordinary rule changes nothing within the tick
but what that callback itself leaves behind. -/
theorem run_isolated (ordinary : rule.kind ≠ .capture) (recasts : other.Recasts rule)
    (tick : Nat) (database : Database) (earlier later : List Rule) (ceiling : Option Nat)
    (fuel : Nat) :
    Option.Rel (Isolated tick earlier rule other later)
      ((start database (earlier ++ rule :: later)).run tick ceiling fuel)
      ((start database (earlier ++ other :: later)).run tick ceiling fuel) := by
  have related := (Twins.start tick database earlier rule other later).run ordinary recasts
    ceiling fuel
  generalize (start database (earlier ++ rule :: later)).run tick ceiling fuel = first at *
  generalize (start database (earlier ++ other :: later)).run tick ceiling fuel = second at *
  cases related with
  | none => exact .none
  | some twins => exact .some (twins.isolated recasts)

/-- A callback that claims something for either of two matches, and one that
panics at the first. -/
theorem run_isolated_of_panic :
    let patterns : List Claim := [{ name := "@ is hot", args := [.var "x"] }]
    let rule : Rule :=
      { id := .given 0, body := .each patterns fun _ _ => ⟨[.assert (.fact "seen" [])], .done⟩,
        source := .core, isDynamic := false }
    let other : Rule := { rule with body := .each patterns fun _ _ => ⟨[], .panicked none⟩ }
    let database : Database :=
      (∅ : Database).insertAll [.fact "@ is hot" [.int 1], .fact "@ is hot" [.int 2]]
    ((start database [rule]).run 1 none 1).isSome = true ∧
      Option.Rel (Isolated 1 [] rule other []) ((start database [rule]).run 1 none 1)
        ((start database [other]).run 1 none 1) := by
  intro patterns rule other database
  have ordinary : rule.kind ≠ .capture := (by decide : RuleKind.each ≠ .capture)
  have recasts : other.Recasts rule := ⟨rfl, rfl, rfl, rfl, rfl⟩
  exact ⟨by decide +kernel, run_isolated ordinary recasts 1 database [] [] none 1⟩

end Twins

end Settling

end Blackboard
