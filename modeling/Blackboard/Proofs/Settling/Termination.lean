import Blackboard.Proofs.Settling.Recording
import Blackboard.Proofs.Store.Novelty
import Blackboard.Scheduler
import Mathlib.Data.Nat.Find

/-!
# Settling ends

An iteration leaves a tick unsettled exactly if it stores a fact that was not there
before (`Settling.iterate_settled_iff`), and a run stops at the first iteration that
settles it or reaches the ceiling (`Settling.run_eq_some_iff`). Where the capture rules
only ever claim facts of a finite list, every iteration that does not settle the tick
stores one that was missing, so the tick settles under any ceiling that is high enough,
and under none (`Settling.run_terminates`).
-/

namespace Blackboard

namespace Database

/-! ## Learning something new -/

theorem learn_append_snd (db : Database) (first second : List Claim) :
    (db.learn (first ++ second)).2 =
      ((db.learn first).2 || ((db.learn first).1.learn second).2) := by
  induction first generalizing db with
  | nil => rfl
  | cons claim first ih => rw [List.cons_append, learn_cons, learn_cons, ih, Bool.or_assoc]

/-- Something new is learned if one of the claims was not contained before all of them:
the first of those that restate each other was new when it was stored. -/
theorem learn_snd_iff {db : Database} (indexed : db.store.Indexed) (claims : List Claim) :
    (db.learn claims).2 = true ↔
      ∃ claim ∈ claims, claim.IsFact ∧ db.store.contains claim = false := by
  induction claims generalizing db with
  | nil => simp [learn]
  | cons claim claims ih =>
      have here : (Store.accepts claim && !db.contains claim) = true ↔
          claim.IsFact ∧ db.store.contains claim = false := by
        rw [Bool.and_eq_true, Store.accepts_iff_isFact, Bool.not_eq_true', contains]
      have stillIndexed : (db.insert claim).store.Indexed := indexed.insert claim
      rw [learn_cons, Bool.or_eq_true, here, ih stillIndexed]
      simp only [List.mem_cons, exists_eq_or_imp]
      constructor
      · rintro (new | ⟨other, member, fact, absent⟩)
        · exact .inl new
        · refine .inr ⟨other, member, fact, ?_⟩
          rw [← Bool.not_eq_true] at absent ⊢
          exact fun known => absent ((indexed.contains_insert_iff claim other).mpr (.inl known))
      · rintro (new | ⟨other, member, fact, absent⟩)
        · exact .inl new
        · by_cases repeated : claim.IsFact ∧ claim.Restates other
          · exact .inl ⟨repeated.1, (indexed.contains_congr repeated.2).trans absent⟩
          · refine .inr ⟨other, member, fact, ?_⟩
            rw [← Bool.not_eq_true] at absent ⊢
            exact fun known =>
              ((indexed.contains_insert_iff claim other).mp known).elim absent repeated

end Database

namespace Settling

/-! ## Iterations -/

/-- What the capture rules claim in the next iteration. -/
def claimed (tick : Nat) (s : Settling) : List Claim :=
  let queried := queryAll tick (s.iterations + 1) s.progress s.database
  captureClaims (supplyAll tick (s.iterations + 1) queried.progress queried.database).trace

theorem iterate_store (tick : Nat) (s : Settling) :
    (s.iterate tick).database.store = s.database.store.insertAll (s.claimed tick) := by
  rw [← queryAll_store tick (s.iterations + 1) s.progress s.database]
  apply supplyAll_store

theorem captureClaims_iterate (tick : Nat) (s : Settling) :
    captureClaims (s.iterate tick).trace = captureClaims s.trace ++ s.claimed tick := by
  have silent : captureClaims (queryAll tick (s.iterations + 1) s.progress s.database).trace =
      [] := captureClaims_of_ordinary ordinary_of_mem_queryAll
  change captureClaims (s.trace ++ _ ++ _) = _
  rw [captureClaims_append, captureClaims_append, silent, List.append_nil]
  rfl

theorem supplyAll_grew (tick iteration : Nat) (progress : List Progress) (db : Database) :
    (supplyAll tick iteration progress db).grew =
      (db.learn (captureClaims (supplyAll tick iteration progress db).trace)).2 := by
  induction progress generalizing db with
  | nil => rfl
  | cons here rest ih =>
      rw [supplyAll_cons]
      rcases Progress.supply_cases tick iteration here db with
        ⟨_, result⟩ | ⟨invocation, capture, _, made, result⟩
      · rw [result]
        exact ih db
      · have learned : captureClaims [invocation] = invocation.contribution.claims := by
          simp [captureClaims, made, capture]
        rw [result, captureClaims_append, learned, Database.learn_append_snd]
        exact congrArg ((db.learn invocation.contribution.claims).2 || ·) (ih _)

theorem iterate_settled_eq_false_iff {s : Settling} (indexed : s.database.store.Indexed)
    (tick : Nat) :
    (s.iterate tick).settled = false ↔
      ∃ claim ∈ s.claimed tick, claim.IsFact ∧ s.database.store.contains claim = false := by
  have sameStore := queryAll_store tick (s.iterations + 1) s.progress s.database
  change (!(supplyAll _ _ _ _).grew) = false ↔ _
  rw [Bool.not_eq_false', supplyAll_grew, Database.learn_snd_iff (by rwa [sameStore]), sameStore]
  rfl

/-- The next iteration stores a fact that is not there yet. -/
def Gains (tick : Nat) (s : Settling) : Prop :=
  s.database.store.Gains (s.iterate tick).database.store

/-- An iteration settles a tick unless it stores a fact that was not there before. -/
theorem iterate_settled_iff {s : Settling} (indexed : s.database.store.Indexed) (tick : Nat) :
    (s.iterate tick).settled = false ↔ s.Gains tick := by
  rw [Gains, iterate_store, indexed.gains_insertAll_iff, iterate_settled_eq_false_iff indexed]

/-! ## Where a run stops -/

/-- A run does not go on from here. -/
def stops (ceiling : Option Nat) (s : Settling) : Bool :=
  s.settled || ceiling.any fun limit => max limit 1 ≤ s.iterations

theorem stops_of_settled {s : Settling} (settled : s.settled = true) (ceiling : Option Nat) :
    s.stops ceiling = true := by
  rw [stops, settled, Bool.true_or]

/-- A run ends with the first iteration after which it does not go on. -/
theorem run_eq_some_iff (tick : Nat) (ceiling : Option Nat) (fuel : Nat) (s last : Settling) :
    s.run tick ceiling fuel = some last ↔
      ∃ n < fuel, last = s.stage tick (n + 1) ∧ last.stops ceiling = true ∧
        ∀ k < n, (s.stage tick (k + 1)).stops ceiling = false := by
  induction fuel generalizing s with
  | zero => simp [run]
  | succ fuel ih =>
      change (if (s.iterate tick).stops ceiling = true then some (s.iterate tick)
        else (s.iterate tick).run tick ceiling fuel) = some last ↔ _
      cases stopped : (s.iterate tick).stops ceiling with
      | true =>
          rw [if_pos rfl, Option.some.injEq]
          constructor
          · rintro rfl
            exact ⟨0, Nat.succ_pos fuel, rfl, stopped, fun k none => absurd none k.not_lt_zero⟩
          · rintro ⟨n, _, rfl, _, before⟩
            cases n with
            | zero => rfl
            | succ n => exact absurd (stopped.symm.trans (before 0 n.succ_pos)) Bool.noConfusion
      | false =>
          rw [if_neg Bool.false_ne_true, ih]
          simp only [stage_iterate]
          constructor
          · rintro ⟨n, inside, rfl, ends, before⟩
            refine ⟨n + 1, Nat.succ_lt_succ inside, rfl, ends, ?_⟩
            intro k earlier
            cases k with
            | zero => exact stopped
            | succ k => exact before k (Nat.lt_of_succ_lt_succ earlier)
          · rintro ⟨n, inside, rfl, ends, before⟩
            cases n with
            | zero => exact absurd (stopped.symm.trans ends) Bool.noConfusion
            | succ n =>
                refine ⟨n, Nat.lt_of_succ_lt_succ inside, rfl, ends, ?_⟩
                exact fun k earlier => before (k + 1) (Nat.succ_lt_succ earlier)

/-- If a run does not go on after some iteration, there is a first such iteration. -/
theorem exists_first_stop {tick : Nat} {ceiling : Option Nat} {s : Settling} {n : Nat}
    (stopped : (s.stage tick (n + 1)).stops ceiling = true) :
    ∃ m ≤ n, (s.stage tick (m + 1)).stops ceiling = true ∧
      ∀ k < m, (s.stage tick (k + 1)).stops ceiling = false := by
  classical
  have reached : ∃ m, (s.stage tick (m + 1)).stops ceiling = true := ⟨n, stopped⟩
  refine ⟨Nat.find reached, Nat.find_min' reached stopped, Nat.find_spec reached, ?_⟩
  intro k earlier
  exact Bool.eq_false_iff.mpr (Nat.find_min reached earlier)

theorem run_eq_none_iff (tick : Nat) (ceiling : Option Nat) (fuel : Nat) (s : Settling) :
    s.run tick ceiling fuel = none ↔
      ∀ n < fuel, (s.stage tick (n + 1)).stops ceiling = false := by
  constructor
  · intro unfinished n inside
    rw [← Bool.not_eq_true]
    intro stopped
    obtain ⟨m, first, ends, before⟩ := exists_first_stop stopped
    have finished := (run_eq_some_iff tick ceiling fuel s _).mpr
      ⟨m, Nat.lt_of_le_of_lt first inside, rfl, ends, before⟩
    rw [unfinished] at finished
    cases finished
  · intro going
    rw [Option.eq_none_iff_forall_ne_some]
    intro last finished
    obtain ⟨n, inside, rfl, stopped, _⟩ := (run_eq_some_iff ..).mp finished
    rw [going n inside] at stopped
    cases stopped

/-- A run does not get past an iteration that settles it. -/
theorem exists_stage_of_settled {tick : Nat} {ceiling : Option Nat} {fuel n : Nat}
    {s last : Settling} (settled : (s.stage tick (n + 1)).settled = true)
    (finished : s.run tick ceiling fuel = some last) :
    ∃ k ≤ n, last = s.stage tick (k + 1) := by
  obtain ⟨k, _, rfl, _, before⟩ := (run_eq_some_iff ..).mp finished
  refine ⟨k, ?_, rfl⟩
  by_contra beyond
  have stopped := stops_of_settled settled ceiling
  rw [before n (Nat.lt_of_not_le beyond)] at stopped
  cases stopped

/-- If a tick has settled, the ceiling leaves no mark on what it contributes. -/
theorem contribution_of_settled {s : Settling} (settled : s.settled = true) (tick : Nat)
    (ceiling : Option Nat) : s.contribution tick ceiling = s.contribution tick none := by
  cases ceiling with
  | none => rfl
  | some limit => simp only [contribution, if_pos settled]

theorem stops_stage_start (tick : Nat) (db : Database) (rules : List Rule)
    (ceiling : Option Nat) (n : Nat) :
    ((start db rules).stage tick n).stops ceiling =
      (((start db rules).stage tick n).settled || ceiling.any fun limit => max limit 1 ≤ n) := by
  rw [stops, iterations_stage_start]

/-- Up to the first iteration that settles the tick, a ceiling stops a run anywhere. -/
theorem run_of_unsettled {tick : Nat} {db : Database} {rules : List Rule} {n : Nat}
    (unsettled : ∀ k < n, ((start db rules).stage tick (k + 1)).settled = false) :
    (start db rules).run tick (some (n + 1)) (n + 1) =
      some ((start db rules).stage tick (n + 1)) := by
  refine (run_eq_some_iff ..).mpr ⟨n, n.lt_succ_self, rfl, ?_, ?_⟩
  · rw [stops_stage_start]
    simp
  · intro k earlier
    rw [stops_stage_start, unsettled k earlier]
    simpa using earlier

/-- How a run under a limit ends: after no more iterations than it allows, unsettled only
if the last of these has stored something new. -/
structure EndsWithin (tick limit : Nat) (last opening : Settling) : Prop where
  staged : last = opening.stage tick last.iterations
  within : 1 ≤ last.iterations ∧ last.iterations ≤ max limit 1
  unsettled : last.settled = false ↔
    last.iterations = max limit 1 ∧ (opening.stage tick (last.iterations - 1)).Gains tick
  /-- Every iteration but one that settles the tick stores something new. -/
  gains : ∀ k < last.iterations, k + 1 < last.iterations ∨ last.settled = false →
    (opening.stage tick k).Gains tick

theorem exists_endsWithin {db : Database} (indexed : db.store.Indexed) (tick : Nat)
    (rules : List Rule) (limit : Nat) :
    ∃ last, (∀ fuel ≥ max limit 1, (start db rules).run tick (some limit) fuel = some last) ∧
      last.EndsWithin tick limit (start db rules) := by
  have atLimit : ((start db rules).stage tick (max limit 1 - 1 + 1)).stops (some limit) =
      true := by
    rw [stops_stage_start, Nat.sub_add_cancel (Nat.le_max_right limit 1), Option.any_some,
      decide_eq_true (Nat.le_refl _), Bool.or_true]
  have gainsAt (k : Nat) : ((start db rules).stage tick (k + 1)).settled = false ↔
      ((start db rules).stage tick k).Gains tick :=
    iterate_settled_iff (stage_indexed (s := start db rules) indexed tick k) tick
  obtain ⟨n, inside, stopped, before⟩ := exists_first_stop atLimit
  have counted := iterations_stage_start tick db rules (n + 1)
  refine ⟨(start db rules).stage tick (n + 1), ?_, ?_⟩
  · intro fuel enough
    exact (run_eq_some_iff ..).mpr ⟨n, by omega, rfl, stopped, before⟩
  · constructor
    · rw [counted]
    · rw [counted]
      omega
    · rw [counted, Nat.add_sub_cancel, gainsAt]
      constructor
      · intro gains
        rw [stops_stage_start, (gainsAt n).mpr gains] at stopped
        have reached : max limit 1 ≤ n + 1 := by simpa using stopped
        exact ⟨by omega, gains⟩
      · exact And.right
    · rw [counted]
      intro k inside' unfinished
      rcases Nat.lt_succ_iff_lt_or_eq.mp inside' with earlier | rfl
      · have going := before k earlier
        rw [stops, Bool.or_eq_false_iff] at going
        exact (gainsAt k).mp going.1
      · exact (gainsAt k).mp (unfinished.resolve_left (Nat.lt_irrefl _))

/-! ## Capture rules that run out of facts -/

/-- In every run, the facts that capture rules claim restate those of a list. -/
def Confined (tick : Nat) (s : Settling) (facts : List Claim) : Prop :=
  ∀ ceiling fuel last, s.run tick ceiling fuel = some last →
    ∀ claim ∈ captureClaims last.trace, claim.IsFact → ∃ fact ∈ facts, claim.Restates fact

/-- Up to the first iteration that settles the tick, capture rules claim facts of the list. -/
theorem Confined.claimed {tick : Nat} {db : Database} {rules : List Rule} {facts : List Claim}
    (confined : (start db rules).Confined tick facts) {n : Nat}
    (unsettled : ∀ k < n, ((start db rules).stage tick (k + 1)).settled = false) :
    ∀ claim ∈ ((start db rules).stage tick n).claimed tick, claim.IsFact →
      ∃ fact ∈ facts, claim.Restates fact := by
  intro claim made
  apply confined _ _ _ (run_of_unsettled unsettled)
  rw [stage_succ, captureClaims_iterate]
  exact List.mem_append_right _ made

/-- Every iteration that does not settle the tick stores a fact that was missing. -/
theorem Confined.missing_add_le {tick : Nat} {db : Database} {rules : List Rule}
    {facts : List Claim} (confined : (start db rules).Confined tick facts)
    (indexed : db.store.Indexed) {n : Nat}
    (unsettled : ∀ k < n, ((start db rules).stage tick (k + 1)).settled = false) :
    (((start db rules).stage tick n).database.store.missing facts).length + n ≤
      (db.store.missing facts).length := by
  induction n with
  | zero => exact Nat.le_refl _
  | succ n ih =>
      have before := fun k (earlier : k < n) => unsettled k (Nat.lt_succ_of_lt earlier)
      have stillIndexed : ((start db rules).stage tick n).database.store.Indexed :=
        stage_indexed (s := start db rules) indexed tick n
      obtain ⟨claim, made, fact, absent⟩ :=
        (iterate_settled_eq_false_iff stillIndexed tick).mp (unsettled n n.lt_succ_self)
      obtain ⟨listed, member, restates⟩ := confined.claimed before claim made fact
      have fewer := stillIndexed.missing_insertAll_lt made fact absent member restates
      rw [← iterate_store, ← stage_succ] at fewer
      have := ih before
      omega

/-- If capture rules claim only facts of a list, the tick settles. -/
theorem Confined.exists_settled {tick : Nat} {db : Database} {rules : List Rule}
    {facts : List Claim} (confined : (start db rules).Confined tick facts)
    (indexed : db.store.Indexed) :
    ∃ n ≤ (db.store.missing facts).length,
      ((start db rules).stage tick (n + 1)).settled = true ∧
        ∀ k < n, ((start db rules).stage tick (k + 1)).settled = false := by
  by_cases unsettled : ∀ k ≤ (db.store.missing facts).length,
      ((start db rules).stage tick (k + 1)).settled = false
  · have := confined.missing_add_le indexed (fun k inside => unsettled k (Nat.le_of_lt_succ inside))
    omega
  · simp only [not_forall, Bool.not_eq_false] at unsettled
    obtain ⟨n, inside, settled⟩ := unsettled
    obtain ⟨m, first, stopped, before⟩ := exists_first_stop (stops_of_settled settled none)
    simp only [stops, Option.any_none, Bool.or_false] at stopped before
    exact ⟨m, first.trans inside, stopped, before⟩

/-- Settling ends. Under a limit it takes no more iterations than that, or one; it is
left unsettled exactly if it has taken that many and the last of them has stored a fact
that was not there before, and so has every iteration but one that settles the tick.
If the capture rules claim only facts of a finite list, it settles after at most one
iteration more than there are facts of the list missing, and no ceiling above the length
of the list makes a difference. -/
theorem run_terminates (tick : Nat) (claims : List Claim) (captures : Captures)
    (rules : List Rule) :
    let opening := start { store := .ofClaims claims, captures } rules
    (∀ limit, ∃ last,
      (∀ fuel ≥ max limit 1, opening.run tick (some limit) fuel = some last) ∧
        last.EndsWithin tick limit opening) ∧
    ∀ facts, opening.Confined tick facts →
      ∃ last, last.settled = true ∧
        last.iterations ≤ ((Store.ofClaims claims).missing facts).length + 1 ∧
        ∀ ceiling : Option Nat, (∀ limit ∈ ceiling, facts.length < limit) →
          (∀ fuel ≥ last.iterations, opening.run tick ceiling fuel = some last) ∧
            last.contribution tick ceiling = last.contribution tick none := by
  intro opening
  let db : Database := { store := .ofClaims claims, captures }
  have indexed : db.store.Indexed := Store.indexed_ofClaims claims
  refine ⟨fun limit => exists_endsWithin indexed tick rules limit, ?_⟩
  intro facts confined
  obtain ⟨n, inside, settled, before⟩ := confined.exists_settled indexed
  have counted := iterations_stage_start tick db rules (n + 1)
  refine ⟨opening.stage tick (n + 1), settled, ?_, ?_⟩
  · rw [counted]
    exact Nat.succ_le_succ inside
  · intro ceiling high
    constructor
    · intro fuel enough
      rw [counted] at enough
      refine (run_eq_some_iff ..).mpr ⟨n, enough, rfl, stops_of_settled settled ceiling, ?_⟩
      intro k earlier
      rw [stops_stage_start, before k earlier, Bool.false_or, Option.any_eq_false]
      intro limit limited
      have above := high limit limited
      have fewMissing := Store.missing_length_le (.ofClaims claims) facts
      have inside : n ≤ ((Store.ofClaims claims).missing facts).length := inside
      rw [decide_eq_false_iff_not]
      omega
    · exact contribution_of_settled settled tick ceiling

/-- A rule that misses in every iteration, and one that answers every miss with the same
fact, which is not what the first waits for. -/
theorem run_terminates_of_repeated_misses :
    let pattern : Claim := { name := "@ has @ kids", args := [.var "p", .var "?n"] }
    let given (n : Nat) (body : RuleBody) : Rule :=
      { id := .given n, body, source := .core, isDynamic := false }
    let rules : List Rule :=
      [ given 0 (.each [{ name := "@ has @ kids", args := [.val (.text "Homer"), .var "n"] }]
          fun _ _ => .idle),
        given 1 (.capture pattern fun _ m =>
          ⟨[.assert (.fact "someone asked about @" (m.get? "p").toList)], .done⟩) ]
    let facts : List Claim :=
      [.fact "someone asked about @" [.text "Homer"], .fact "someone asked about @" [.int 2]]
    let claims : List Claim := [.fact "someone asked about @" [.int 2]]
    let captures : Captures :=
      { templates := Std.ExtTreeMap.ofList [("@ has @ kids", pattern)] }
    let opening := start { store := .ofClaims claims, captures } rules
    opening.Confined 1 facts ∧ ((Store.ofClaims claims).missing facts).length = 1 ∧
      ((opening.stage 1 2).captured "@ has @ kids").length = 2 ∧
      (captureClaims (opening.stage 1 2).trace).length = 2 ∧
      ∃ last, last.settled = true ∧ last.iterations ≤ 2 ∧
        opening.run 1 none 2 = some last ∧ opening.run 1 (some 3) 2 = some last := by
  intro pattern given rules facts claims captures opening
  have settled : (opening.stage 1 2).settled = true := by decide +kernel
  have missing : ((Store.ofClaims claims).missing facts).length = 1 := by decide +kernel
  have confined : opening.Confined 1 facts := by
    intro ceiling fuel last finished
    obtain ⟨k, inside, rfl⟩ := exists_stage_of_settled settled finished
    rcases Nat.le_one_iff_eq_zero_or_eq_one.mp inside with rfl | rfl
    · decide +kernel
    · decide +kernel
  refine ⟨confined, missing, by decide +kernel, by decide +kernel, ?_⟩
  obtain ⟨last, ends, few, same⟩ := (run_terminates 1 claims captures rules).2 facts confined
  rw [missing] at few
  exact ⟨last, ends, few, (same none nofun).1 2 few,
    (same (some 3) (by simp [facts])).1 2 few⟩

end Settling

end Blackboard
