import Blackboard.Proofs.Query.Reordering
import Blackboard.Proofs.Settling.Firing
import Blackboard.Proofs.Settling.Serving
import Blackboard.Proofs.Settling.Termination
import Mathlib.Data.List.Find

/-!
# The order of rules

Two runs whose rules are the same, in different orders, keep in step (`Rearranged`): after
every iteration they hold the same facts and the same captures, each as often, and every
rule has come equally far. Capture rules must not fail, for a failure discards the matches
that come after it, and what they do for a match must not depend on its turn.
-/

namespace Blackboard

/-! ## Lists in another order -/

/-- The entries of a list in another order, which is given by their positions. -/
def arranged {α : Type} (order : List Nat) (list : List α) : List α :=
  order.filterMap fun i => list[i]?

theorem arranged_map {α β : Type} (order : List Nat) (list : List α) (f : α → β) :
    arranged order (list.map f) = (arranged order list).map f := by
  simp [arranged, List.map_filterMap]

theorem arranged_range {α : Type} (list : List α) :
    arranged (List.range list.length) list = list := by
  induction list with
  | nil => rfl
  | cons first rest ih =>
      unfold arranged at ih ⊢
      rw [List.length_cons, List.range_succ_eq_map, List.filterMap_cons, List.filterMap_map]
      exact congrArg (first :: ·) ih

theorem arranged_perm {α : Type} {order : List Nat} {list : List α}
    (perm : order.Perm (List.range list.length)) : (arranged order list).Perm list := by
  have entries := perm.filterMap fun i => list[i]?
  rwa [← arranged, ← arranged, arranged_range] at entries

/-- An entry stands where the order has its position. -/
theorem getElem?_arranged {α : Type} {order : List Nat} {list : List α}
    (perm : order.Perm (List.range list.length)) {i j : Nat} (placed : order[i]? = some j) :
    (arranged order list)[i]? = list[j]? := by
  have inside : ∀ k ∈ order, k < list.length := fun k member =>
    List.mem_range.mp (perm.mem_iff.mp member)
  clear perm
  induction order generalizing i with
  | nil => cases placed
  | cons first order ih =>
      have bound : first < list.length := inside first List.mem_cons_self
      have here : list[first]? = some list[first] := List.getElem?_eq_getElem bound
      have cons : arranged (first :: order) list = list[first] :: arranged order list := by
        rw [arranged, List.filterMap_cons, here]
        rfl
      rw [cons]
      cases i with
      | zero =>
          obtain rfl : first = j := Option.some.inj placed
          exact here.symm
      | succ i => exact ih placed fun k member => inside k (List.mem_cons_of_mem _ member)

/-- Calls for the same matches and with the same claims, each as often, in any order. -/
structure SameCalls (calls others : List Invocation) : Prop where
  delivered : (calls.flatMap fun call => call.delivered).Perm
    (others.flatMap fun call => call.delivered)
  claims : (calls.flatMap fun call => call.contribution.claims).Perm
    (others.flatMap fun call => call.contribution.claims)

namespace Rule

/-! ## Callbacks that are functions of their match -/

/-- What a capture rule does for a match does not depend on its turn. -/
def Steady (tick : Nat) (rule : Rule) : Prop :=
  ∀ pattern callback, rule.body = .capture pattern callback →
    ∀ turn m, callback (rule.context tick turn) m = callback (rule.context tick 0) m

/-- What the callback of a capture rule claims for a match. -/
def claimsFor (rule : Rule) (tick : Nat) (callback : Context → Match → Reaction) (m : Match) :
    List Claim :=
  (callback (rule.context tick 0) m).actions.filterMap (rule.context tick 0).claim?

theorem claim?_context (rule : Rule) (tick turn : Nat) :
    (rule.context tick turn).claim? = (rule.context tick 0).claim? := by
  funext action
  cases action <;> rfl

namespace Steady

variable {rule : Rule} {tick : Nat} {pattern : Claim} {callback : Context → Match → Reaction}
  (steady : rule.Steady tick) (body : rule.body = .capture pattern callback)

include steady body

theorem done_iff (turn : Nat) (found : List Match) :
    (rule.deliverEach tick callback turn found).failure = none ↔
      ∀ m ∈ found, ¬ rule.Fails tick callback 0 m := by
  have anyTurn (turn : Nat) (m : Match) :
      rule.Fails tick callback turn m ↔ rule.Fails tick callback 0 m := by
    unfold Fails
    rw [steady pattern callback body]
  rw [failure_eq_none_iff]
  simp only [anyTurn, List.mem_iff_getElem?]
  constructor
  · rintro succeeds m ⟨j, held⟩
    exact succeeds j m held
  · intro succeeds j m held
    exact succeeds m ⟨j, held⟩

theorem claims {turn : Nat} {found : List Match}
    (done : (rule.deliverEach tick callback turn found).failure = none) :
    (rule.deliverEach tick callback turn found).contribution.claims =
      found.flatMap (rule.claimsFor tick callback) := by
  rw [deliverEach_claims, delivered_of_done done]
  simp only [steady pattern callback body, claim?_context]
  calc
    (found.zipIdx turn).flatMap (fun placed => rule.claimsFor tick callback placed.1)
    _ = ((found.zipIdx turn).map Prod.fst).flatMap (rule.claimsFor tick callback) := by
        rw [List.flatMap_map]
    _ = found.flatMap (rule.claimsFor tick callback) := by rw [List.zipIdx_map_fst]

/-- A call that fails for none of its matches comes to the same in any order of them. -/
theorem invoke_perm {iteration turn : Nat} {found others : List Match}
    (perm : found.Perm others) (done : (rule.invoke tick iteration turn found).failure = none) :
    (rule.invoke tick iteration turn others).failure = none ∧
      SameCalls [rule.invoke tick iteration turn found]
        [rule.invoke tick iteration turn others] := by
  rw [invoke_of_capture body] at done
  have otherDone : (rule.deliverEach tick callback turn others).failure = none := by
    rw [steady.done_iff body] at done ⊢
    intro m member
    exact done m (perm.mem_iff.mpr member)
  rw [invoke_of_capture body]
  refine ⟨otherDone, ?_, ?_⟩
  · rw [List.flatMap_singleton, List.flatMap_singleton, invoke_of_capture body,
      invoke_of_capture body, delivered_of_done done, delivered_of_done otherDone]
    exact perm
  · rw [List.flatMap_singleton, List.flatMap_singleton, invoke_of_capture body,
      invoke_of_capture body, steady.claims body done, steady.claims body otherDone]
    exact perm.flatMap_right _

end Steady

end Rule

namespace Progress

variable {tick : Nat} {here : Progress}

/-! ## A rule in two runs -/

theorem findings_perm {first second : Store} (same : first.SameFacts second) :
    (here.findings first).Perm (here.findings second) := by
  unfold findings
  split
  · exact same.answer_found here.rule.patterns
  · exact .refl _

/-- Querying does the same to a rule, wherever it finds the same matches. -/
theorem queried_congr {first second : Store} (same : first.SameFacts second) :
    here.queried first = here.queried second := by
  have perm : (here.findings first).Perm (here.findings second) := findings_perm same
  unfold queried
  by_cases nothing : here.findings first = []
  · rw [if_pos nothing, if_pos (List.nil_perm.mp (nothing ▸ perm))]
  · have something : here.findings second ≠ [] := fun none => nothing (none ▸ perm).eq_nil
    rw [if_neg nothing, if_neg something, retire, retire, perm.length_eq]

/-- Supplying does the same to a rule, wherever the same matches are pending. -/
theorem supply_perm {db db' : Database} (steady : here.rule.Steady tick) (iteration : Nat)
    (pending : (here.pending db).Perm (here.pending db'))
    (done : ∀ call ∈ (here.supply tick iteration db).2.2.1, call.failure = none) :
    (here.supply tick iteration db).1 = (here.supply tick iteration db').1 ∧
      SameCalls (here.supply tick iteration db).2.2.1 (here.supply tick iteration db').2.2.1 := by
  rcases supply_cases tick iteration here db with
    ⟨nothing, result⟩ | ⟨call, capture, something, made, result⟩
  · rw [nothing] at pending
    rcases supply_cases tick iteration here db' with ⟨_, result'⟩ | ⟨_, _, something', _⟩
    · rw [result, result']
      exact ⟨rfl, .refl _, .refl _⟩
    · exact absurd (List.nil_perm.mp pending) something'
  · rcases supply_cases tick iteration here db' with
      ⟨nothing', _⟩ | ⟨call', _, _, made', result'⟩
    · rw [nothing'] at pending
      exact absurd pending.eq_nil something
    · rcases Rule.exists_body_of_capture capture with ⟨pattern, callback, body⟩
      rw [result] at done
      have callDone := done call (List.mem_singleton.mpr rfl)
      rw [made] at callDone
      obtain ⟨callDone', same⟩ := steady.invoke_perm body pending callDone
      rw [← made] at callDone same
      rw [← made'] at callDone' same
      rw [result, result']
      refine ⟨?_, same⟩
      rw [advance, advance, callDone, callDone', pending.length_eq]

/-- What is pending for a capture rule that is not ahead of the captures. -/
theorem pending_eq_drop {pattern : Claim} {callback : Context → Match → Reaction}
    (body : here.rule.body = .capture pattern callback) (waiting : here.retired = false)
    {db : Database} {captured recorded : List Match}
    (held : (db.captures.under pattern.name).toList = captured ++ recorded)
    (inside : here.cursor ≤ captured.length) :
    here.pending db = captured.drop here.cursor ++ recorded := by
  rw [pending_of_waiting body waiting, held, List.drop_append_of_le_length inside]

/-- A capture rule that has not failed and that is still to be handed the same captures in
two runs. -/
structure Ready (captured others : List Match) (here : Progress) : Prop where
  waiting : here.retired = false
  inside : here.cursor ≤ captured.length
  inside' : here.cursor ≤ others.length
  perm : (captured.drop here.cursor).Perm (others.drop here.cursor)

namespace Ready

variable {captured others recorded recorded' : List Match} (ready : here.Ready captured others)
  (same : recorded.Perm recorded')

include ready same

theorem drop_append :
    (captured.drop here.cursor ++ recorded).Perm (others.drop here.cursor ++ recorded') :=
  ready.perm.append same

/-- A rule that is not called is to be handed what was recorded since, too. -/
theorem append : here.Ready (captured ++ recorded) (others ++ recorded') where
  waiting := ready.waiting
  inside := by
    rw [List.length_append]
    exact Nat.le_add_right_of_le ready.inside
  inside' := by
    rw [List.length_append]
    exact Nat.le_add_right_of_le ready.inside'
  perm := by
    rw [List.drop_append_of_le_length ready.inside, List.drop_append_of_le_length ready.inside']
    exact ready.drop_append same

/-- A rule that is called is handed all there is. -/
theorem advance {call : Invocation} (done : call.failure = none) :
    (here.advance call (captured.drop here.cursor ++ recorded)).Ready (captured ++ recorded)
      (others ++ recorded') := by
  have reached : here.cursor + (captured.drop here.cursor ++ recorded).length =
      (captured ++ recorded).length := by
    have := ready.inside
    rw [List.length_append, List.length_append, List.length_drop]
    omega
  have reached' : here.cursor + (captured.drop here.cursor ++ recorded).length =
      (others ++ recorded').length := by
    have := ready.inside'
    rw [(ready.drop_append same).length_eq, List.length_append, List.length_append,
      List.length_drop]
    omega
  constructor
  · rw [Progress.advance, done]
    rfl
  · exact Nat.le_of_eq reached
  · exact Nat.le_of_eq reached'
  · rw [Progress.advance, List.drop_eq_nil_of_le (Nat.le_of_eq reached.symm),
      List.drop_eq_nil_of_le (Nat.le_of_eq reached'.symm)]

end Ready

end Progress

namespace Settling

/-! ## Runs in step -/

/-- What the capture rules claim in the next iteration, rule by rule. -/
theorem claimed_eq (tick : Nat) (s : Settling) :
    s.claimed tick = s.progress.flatMap fun here =>
      (s.supplied tick here).2.2.1.flatMap fun call => call.contribution.claims := by
  have supplied := (supplyAll_queryAll tick s).2
  have ofCapture : ∀ call ∈ (s.supplyRound tick).flatten, (call.rule.kind == .capture) = true := by
    rw [← supplied]
    intro call called
    exact beq_iff_eq.mpr (capture_of_mem_supplyAll call called)
  calc
    s.claimed tick
    _ = captureClaims (s.supplyRound tick).flatten := congrArg captureClaims supplied
    _ = (s.supplyRound tick).flatten.flatMap fun call => call.contribution.claims := by
        rw [captureClaims, List.filter_eq_self.mpr ofCapture]
    _ = _ := by rw [supplyRound, ← List.flatMap_def, List.flatMap_assoc]

/-- What the next iteration hands the rule at a position. -/
theorem deliveredAt_of_placed {s : Settling} {i : Nat} {here : Progress}
    (placed : s.progress[i]? = some here) {tick : Nat} :
    s.deliveredAt tick i = (s.supplied tick here).2.2.1.flatMap fun call => call.delivered := by
  rw [deliveredAt, callsAt_eq, supplyRound, List.getElem?_map, placed, Option.map_some,
    Option.getD_some]

theorem deliveredAt_of_none {s : Settling} {i : Nat} (absent : s.progress[i]? = none)
    {tick : Nat} : s.deliveredAt tick i = [] := by
  rw [deliveredAt, callsAt_eq, supplyRound, List.getElem?_map, absent, Option.map_none,
    Option.getD_none, List.flatMap_nil]

/-- Two states that have come equally far, with the rules of the second in another order. -/
structure Rearranged (tick : Nat) (order : List Nat) (s t : Settling) : Prop where
  facts : s.database.store.SameFacts t.database.store
  templates : s.database.captures.templates = t.database.captures.templates
  captured : ∀ name, (s.captured name).Perm (t.captured name)
  iterations : s.iterations = t.iterations
  settled : s.settled = t.settled
  shuffled : order.Perm (List.range s.progress.length)
  progress : t.progress = arranged order s.progress
  steady : ∀ here ∈ s.progress, here.rule.Steady tick
  ready : ∀ here ∈ s.progress, ∀ pattern callback, here.rule.body = .capture pattern callback →
    here.Ready (s.captured pattern.name) (t.captured pattern.name)

namespace Rearranged

variable {tick : Nat} {order : List Nat} {s t : Settling} (related : Rearranged tick order s t)

include related

theorem progress_perm : s.progress.Perm t.progress := by
  rw [related.progress]
  exact (arranged_perm related.shuffled).symm

/-- The next iterations miss the same, and so they record the same. -/
theorem recorded (name : String) : (s.recorded name).Perm (t.recorded name) := by
  have failures : s.failures.Perm t.failures :=
    (related.progress_perm.filter _).flatMap fun here _ =>
      related.facts.failures here.rule.patterns
  unfold Settling.recorded
  rw [Captures.captureOf?_congr related.templates]
  exact failures.filterMap _

theorem captured_iterate (name : String) :
    ((s.iterate tick).captured name).Perm ((t.iterate tick).captured name) := by
  rw [iterate_captured related.facts.left, iterate_captured related.facts.right]
  exact (related.captured name).append (related.recorded name)

/-- What is pending for a rule is the same. -/
theorem pending {here : Progress} (member : here ∈ s.progress) :
    (here.pending (s.midway tick)).Perm (here.pending (t.midway tick)) := by
  by_cases capture : here.rule.kind = .capture
  · rcases Rule.exists_body_of_capture capture with ⟨pattern, callback, body⟩
    have ready := related.ready here member pattern callback body
    rw [Progress.pending_eq_drop body ready.waiting (midway_under related.facts.left tick _)
        ready.inside,
      Progress.pending_eq_drop body ready.waiting (midway_under related.facts.right tick _)
        ready.inside']
    exact ready.drop_append (related.recorded pattern.name)
  · rw [Progress.pending_of_ordinary capture, Progress.pending_of_ordinary capture]

/-- An iteration makes the same of a rule, if the rule does not fail in it. -/
theorem supplied {here : Progress} (member : here ∈ s.progress)
    (done : ∀ call ∈ (s.supplied tick here).2.2.1, call.failure = none) :
    (s.supplied tick here).1 = (t.supplied tick here).1 ∧
      SameCalls (s.supplied tick here).2.2.1 (t.supplied tick here).2.2.1 := by
  by_cases capture : here.rule.kind = .capture
  · rw [supplied_of_capture capture] at done
    rw [supplied_of_capture capture, supplied_of_capture capture, ← related.iterations]
    exact Progress.supply_perm (related.steady here member) _ (related.pending member) done
  · rw [supplied_of_ordinary capture, supplied_of_ordinary capture]
    exact ⟨Progress.queried_congr related.facts, .refl _, .refl _⟩

/-- Afterwards a capture rule is still to be handed the same captures. -/
theorem ready_iterate {here : Progress} (member : here ∈ s.progress)
    (done : ∀ call ∈ (s.supplied tick here).2.2.1, call.failure = none) :
    ∀ pattern callback, (s.supplied tick here).1.rule.body = .capture pattern callback →
      (s.supplied tick here).1.Ready ((s.iterate tick).captured pattern.name)
        ((t.iterate tick).captured pattern.name) := by
  intro pattern callback body
  rw [supplied_rule] at body
  have ready := related.ready here member pattern callback body
  have same := related.recorded pattern.name
  rw [supplied_of_capture (Rule.kind_of_capture body)] at done ⊢
  rw [iterate_captured related.facts.left, iterate_captured related.facts.right]
  rcases Progress.supply_cases tick (s.iterations + 1) here (s.midway tick) with
    ⟨_, result⟩ | ⟨call, _, _, _, result⟩
  · rw [result]
    exact ready.append same
  · rw [result] at done ⊢
    rw [Progress.pending_eq_drop body ready.waiting (midway_under related.facts.left tick _)
      ready.inside]
    exact ready.advance same (done call (List.mem_singleton.mpr rfl))

variable (done : ∀ here ∈ s.progress, ∀ call ∈ (s.supplied tick here).2.2.1, call.failure = none)

include done

/-- The next iterations learn the same, rule by rule. -/
theorem claimed : (s.claimed tick).Perm (t.claimed tick) := by
  rw [claimed_eq, claimed_eq]
  exact related.progress_perm.flatMap fun here member =>
    (related.supplied member (done here member)).2.claims

theorem settled_iterate : (s.iterate tick).settled = (t.iterate tick).settled := by
  have sameClaims := related.claimed done
  have unsettled : (s.iterate tick).settled = false ↔ (t.iterate tick).settled = false := by
    rw [iterate_settled_eq_false_iff related.facts.left,
      iterate_settled_eq_false_iff related.facts.right]
    simp only [sameClaims.mem_iff, related.facts.contains]
  rw [← Bool.not_inj_iff, Bool.eq_iff_iff, Bool.not_eq_true', Bool.not_eq_true', unsettled]

theorem progress_iterate :
    (t.iterate tick).progress = arranged order (s.iterate tick).progress := by
  rw [iterate_progress, iterate_progress, related.progress, ← arranged_map]
  congr 1
  apply List.map_congr_left
  intro here member
  exact (related.supplied member (done here member)).1.symm

/-- States stay in step through an iteration in which no capture rule fails. -/
theorem iterate : Rearranged tick order (s.iterate tick) (t.iterate tick) where
  facts := by
    rw [iterate_store, iterate_store]
    exact related.facts.insertAll (related.claimed done)
  templates := by rw [iterate_templates, iterate_templates, related.templates]
  captured := related.captured_iterate
  iterations := congrArg (· + 1) related.iterations
  settled := related.settled_iterate done
  shuffled := by
    rw [iterate_progress, List.length_map]
    exact related.shuffled
  progress := related.progress_iterate done
  steady := by
    rw [iterate_progress, List.forall_mem_map]
    intro here member
    rw [supplied_rule]
    exact related.steady here member
  ready := by
    rw [iterate_progress, List.forall_mem_map]
    intro here member
    exact related.ready_iterate member (done here member)

/-- An iteration hands the rule at a position the same matches. -/
theorem deliveredAt {i j : Nat} (placed : order[i]? = some j) :
    (s.deliveredAt tick j).Perm (t.deliveredAt tick i) := by
  have sameEntry : t.progress[i]? = s.progress[j]? := by
    rw [related.progress, getElem?_arranged related.shuffled placed]
  cases held : s.progress[j]? with
  | none => rw [deliveredAt_of_none held, deliveredAt_of_none (sameEntry.trans held)]
  | some here =>
      rw [deliveredAt_of_placed held, deliveredAt_of_placed (sameEntry.trans held)]
      have member := List.mem_of_getElem? held
      exact (related.supplied member (done here member)).2.delivered

omit done in
theorem stops (ceiling : Option Nat) : s.stops ceiling = t.stops ceiling := by
  rw [Settling.stops, Settling.stops, related.settled, related.iterations]

end Rearranged

/-! ## Runs -/

/-- In no run does a call of a capture rule fail. -/
def Unfailing (tick : Nat) (s : Settling) : Prop :=
  ∀ ceiling fuel last, s.run tick ceiling fuel = some last →
    ∀ call ∈ captureCalls last.trace, call.failure = none

/-- What two runs have in common whose rules are the same, those of the second in another
order. -/
structure SameOutcome (tick : Nat) (order : List Nat) (opening other last last' : Settling) :
    Prop where
  iterations : last.iterations = last'.iterations
  settled : last.settled = last'.settled
  /-- Every rule has fired as often. -/
  progress : last'.progress = arranged order last.progress
  /-- An ordinary rule fires in the same iteration. -/
  firing : ∀ rule, opening.firing? tick rule last.iterations =
    other.firing? tick rule last.iterations
  found : ∀ rule, ∀ k < last.iterations,
    ((opening.stage tick k).found rule).Perm ((other.stage tick k).found rule)
  /-- A capture rule is handed the same captures. -/
  delivered : ∀ i j, order[i]? = some j →
    (opening.deliveredBy tick j last.iterations).Perm (other.deliveredBy tick i last.iterations)
  captured : ∀ name, (last.captured name).Perm (last'.captured name)
  facts : ∀ name, (last.database.store.facts name).Perm (last'.database.store.facts name)

section Runs

variable {tick : Nat} {db : Database} {rules : List Rule} {order : List Nat}

theorem Unfailing.done (unfailing : (start db rules).Unfailing tick) {n : Nat}
    (unsettled : ∀ k < n, ((start db rules).stage tick (k + 1)).settled = false) :
    ∀ here ∈ ((start db rules).stage tick n).progress,
      ∀ call ∈ (((start db rules).stage tick n).supplied tick here).2.2.1,
        call.failure = none := by
  intro here member call called
  apply unfailing _ _ _ (run_of_unsettled unsettled)
  obtain ⟨capture, _, _, made⟩ := Progress.supply_calls called
  apply List.mem_filter.mpr
  constructor
  · rw [stage_succ, iterate_trace]
    apply List.mem_append_right
    apply List.mem_append_right
    exact List.mem_flatten.mpr ⟨_, List.mem_map_of_mem member, called⟩
  · rw [made, Rule.invoke_rule, capture]
    rfl

variable (indexed : db.store.Indexed) (shuffled : order.Perm (List.range rules.length))
  (steady : ∀ rule ∈ rules, rule.Steady tick)

include indexed shuffled steady

theorem Rearranged.start :
    Rearranged tick order (start db rules) (start db (arranged order rules)) where
  facts := .refl indexed
  templates := rfl
  captured _ := .refl _
  iterations := rfl
  settled := rfl
  shuffled := by
    change order.Perm (List.range (rules.map Progress.ofRule).length)
    rwa [List.length_map]
  progress := (arranged_map order rules Progress.ofRule).symm
  steady := List.forall_mem_map.mpr steady
  ready := by
    intro here member pattern callback _
    rcases List.mem_map.mp member with ⟨rule, _, rfl⟩
    exact ⟨rfl, Nat.zero_le _, Nat.zero_le _, .refl _⟩

variable (unfailing : (Settling.start db rules).Unfailing tick)

include unfailing

/-- Runs keep in step up to the first iteration that settles them. -/
theorem stage_rearranged {n : Nat}
    (unsettled : ∀ k, k + 1 < n → ((Settling.start db rules).stage tick (k + 1)).settled = false) :
    Rearranged tick order ((Settling.start db rules).stage tick n)
      ((Settling.start db (arranged order rules)).stage tick n) := by
  induction n with
  | zero => exact .start indexed shuffled steady
  | succ n ih =>
      apply (ih fun k earlier => unsettled k (Nat.lt_succ_of_lt earlier)).iterate
      exact unfailing.done fun k earlier => unsettled k (Nat.succ_lt_succ earlier)

/-- What the runs have come to after some iterations, if only the last has settled them. -/
theorem sameOutcome_stage {n : Nat}
    (unsettled : ∀ k < n, ((Settling.start db rules).stage tick (k + 1)).settled = false) :
    SameOutcome tick order (Settling.start db rules) (Settling.start db (arranged order rules))
      ((Settling.start db rules).stage tick (n + 1))
      ((Settling.start db (arranged order rules)).stage tick (n + 1)) := by
  have related {k : Nat} (inside : k ≤ n + 1) := stage_rearranged indexed shuffled steady unfailing
    (n := k) fun l earlier => unsettled l (by omega)
  have last := related (Nat.le_refl (n + 1))
  have found (rule : Rule) {k : Nat} (inside : k < n + 1) :
      (((Settling.start db rules).stage tick k).found rule).Perm
        (((Settling.start db (arranged order rules)).stage tick k).found rule) :=
    (related (Nat.le_of_lt inside)).facts.answer_found rule.patterns
  constructor
  · exact last.iterations
  · exact last.settled
  · exact last.progress
  · intro rule
    rw [iterations_stage_start]
    apply List.find?_congr
    intro k inside
    rw [(found rule (List.mem_range.mp inside)).isEmpty_eq]
  · intro rule k inside
    rw [iterations_stage_start] at inside
    exact found rule inside
  · intro i j placed
    rw [iterations_stage_start]
    apply List.Perm.flatMap_left
    intro k inside
    have inside := List.mem_range.mp inside
    exact (related (Nat.le_of_lt inside)).deliveredAt
      (unfailing.done fun l earlier => unsettled l (by omega)) placed
  · exact last.captured
  · exact last.facts.perm

/-- Both runs end, or neither does, and if they do they come to the same. -/
theorem run_arranged (ceiling : Option Nat) (fuel : Nat) :
    Option.Rel
      (SameOutcome tick order (Settling.start db rules) (Settling.start db (arranged order rules)))
      ((Settling.start db rules).run tick ceiling fuel)
      ((Settling.start db (arranged order rules)).run tick ceiling fuel) := by
  have going {s : Settling} (goes : s.stops ceiling = false) : s.settled = false :=
    (Bool.or_eq_false_iff.mp goes).1
  cases run : (Settling.start db rules).run tick ceiling fuel with
  | some last =>
      obtain ⟨n, inside, rfl, stopped, before⟩ := (run_eq_some_iff ..).mp run
      have unsettled := fun k (earlier : k < n) => going (before k earlier)
      have sameStops {k : Nat} (inside : k ≤ n) :=
        (stage_rearranged indexed shuffled steady unfailing (n := k + 1)
          fun l earlier => unsettled l (by omega)).stops ceiling
      have other := (run_eq_some_iff tick ceiling fuel
          (Settling.start db (arranged order rules)) _).mpr
        ⟨n, inside, rfl, (sameStops (Nat.le_refl n)).symm.trans stopped,
          fun k earlier => (sameStops (Nat.le_of_lt earlier)).symm.trans (before k earlier)⟩
      rw [other]
      exact .some (sameOutcome_stage indexed shuffled steady unfailing unsettled)
  | none =>
      have before := (run_eq_none_iff ..).mp run
      have other : (Settling.start db (arranged order rules)).run tick ceiling fuel = none := by
        apply (run_eq_none_iff ..).mpr
        intro n inside
        have related := stage_rearranged indexed shuffled steady unfailing (n := n + 1)
          fun k earlier => going (before k (by omega))
        exact (related.stops ceiling).symm.trans (before n inside)
      rw [other]
      exact .none

end Runs

end Settling

end Blackboard
