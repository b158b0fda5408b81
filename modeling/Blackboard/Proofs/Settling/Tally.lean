import Blackboard.Proofs.Settling.Firing

/-!
# What a rule counts

A rule counts the matches that are found for it, before its callback is called with them
(`Offer`). The callback is handed them up to the first for which it fails, so a count can be
higher than the number of matches that were delivered: by what the last offer of the tick
leaves over, for a rule whose callback has failed is offered nothing more
(`Settling.tallies`).

Rules are told apart by their position in the list of rules, as the loop does.
-/

namespace Blackboard

/-- Matches that are found for a rule in an iteration. -/
structure Offer where
  iteration : Nat
  /-- From where the calls of the callback for them are counted. -/
  turn : Nat
  found : List Match

namespace Rule

/-! ## Offers and calls -/

/-- The call of a rule with what it is offered. -/
def accept (rule : Rule) (tick : Nat) (offer : Offer) : Invocation :=
  rule.invoke tick offer.iteration offer.turn offer.found

/-- The callback of a rule that is handed its matches one at a time. -/
def single? (rule : Rule) : Option (Context → Match → Reaction) :=
  match rule.body with
  | .each _ callback => some callback
  | .grouped _ _ => none
  | .capture _ callback => some callback

/-- The callback is handed matches one at a time, and fails for one that others follow. -/
def BreaksOff (rule : Rule) (tick : Nat) (offer : Offer) : Prop :=
  ∃ callback, rule.single? = some callback ∧ ∃ j m, offer.found[j]? = some m ∧
    rule.Fails tick callback (offer.turn + j) m ∧ j + 1 < offer.found.length

/-- The matches of an offer that the callback is not handed. -/
def leftover (rule : Rule) (tick : Nat) (offer : Offer) : List Match :=
  offer.found.drop (rule.accept tick offer).delivered.length

/-- A grouped rule is handed all that it is offered, any other rule one match at a time. -/
theorem accept_cases (rule : Rule) (tick : Nat) (offer : Offer) :
    (rule.kind = .grouped ∧ rule.single? = none ∧
        (rule.accept tick offer).delivered = offer.found) ∨
      ∃ callback, rule.kind ≠ .grouped ∧ rule.single? = some callback ∧
        (rule.accept tick offer).toDelivery =
          rule.deliverEach tick callback offer.turn offer.found := by
  have delivery : (rule.accept tick offer).toDelivery =
      rule.deliver tick offer.turn offer.found := rfl
  rw [delivery]
  unfold kind single? deliver
  cases rule.body with
  | each patterns callback => exact .inr ⟨callback, nofun, rfl, rfl⟩
  | grouped patterns callback => exact .inl ⟨rfl, rfl, rfl⟩
  | capture pattern callback => exact .inr ⟨callback, nofun, rfl, rfl⟩

theorem not_breaksOff_of_grouped {rule : Rule} (grouped : rule.kind = .grouped) (tick : Nat)
    (offer : Offer) : ¬ rule.BreaksOff tick offer := by
  rintro ⟨callback, single, _⟩
  rcases rule.accept_cases tick offer with ⟨_, none, _⟩ | ⟨_, other, _⟩
  · cases none.symm.trans single
  · exact other grouped

/-- The callback is handed something if there is anything. -/
theorem accept_delivered_eq_nil_iff (rule : Rule) (tick : Nat) (offer : Offer) :
    (rule.accept tick offer).delivered = [] ↔ offer.found = [] := by
  rcases rule.accept_cases tick offer with ⟨_, _, all⟩ | ⟨callback, _, _, delivery⟩
  · rw [all]
  · rw [delivery]
    exact delivered_eq_nil_iff offer.turn offer.found

/-- An offer is what is delivered of it and what is left over. -/
theorem delivered_append_leftover (rule : Rule) (tick : Nat) (offer : Offer) :
    (rule.accept tick offer).delivered ++ rule.leftover tick offer = offer.found :=
  List.prefix_iff_eq_append.mp
    (rule.invoke_accounts tick offer.iteration offer.turn offer.found).handed

/-- Something is left over if the callback breaks off. -/
theorem leftover_ne_nil_iff (rule : Rule) (tick : Nat) (offer : Offer) :
    rule.leftover tick offer ≠ [] ↔ rule.BreaksOff tick offer := by
  rw [leftover, ne_eq, List.drop_eq_nil_iff, not_le]
  rcases rule.accept_cases tick offer with ⟨grouped, _, all⟩ | ⟨callback, _, single, delivery⟩
  · rw [all]
    exact iff_of_false (Nat.lt_irrefl _) (not_breaksOff_of_grouped grouped tick offer)
  · rw [delivery, delivered_length_lt_iff, BreaksOff, single]
    simp only [Option.some.injEq, exists_eq_left']

theorem failure_of_breaksOff {rule : Rule} {tick : Nat} {offer : Offer}
    (breaksOff : rule.BreaksOff tick offer) : (rule.accept tick offer).failure.isSome = true := by
  rw [Option.isSome_iff_ne_none]
  intro done
  have all : (rule.accept tick offer).delivered = offer.found :=
    (rule.invoke_accounts tick offer.iteration offer.turn offer.found).complete done
  apply (rule.leftover_ne_nil_iff tick offer).mpr breaksOff
  rw [leftover, all, List.drop_length]

/-- If no offer but the last breaks off, everything is delivered but what that one leaves
over. -/
theorem offered_eq (rule : Rule) (tick : Nat) {offers : List Offer}
    (whole : offers.Pairwise fun earlier _ => ¬ rule.BreaksOff tick earlier) :
    offers.flatMap Offer.found =
      ((offers.map (rule.accept tick)).flatMap fun call => call.delivered) ++
        offers.getLast?.elim [] (rule.leftover tick) := by
  induction offers with
  | nil => rfl
  | cons offer rest ih =>
      obtain ⟨here, further⟩ := List.pairwise_cons.mp whole
      rw [List.flatMap_cons, List.map_cons, List.flatMap_cons, List.append_assoc]
      cases rest with
      | nil => simpa using (rule.delivered_append_leftover tick offer).symm
      | cons next rest =>
          -- another offer follows, so the callback did not break off here
          have nothing : rule.leftover tick offer = [] := by
            by_contra something
            exact here next List.mem_cons_self ((rule.leftover_ne_nil_iff tick offer).mp something)
          have all := rule.delivered_append_leftover tick offer
          rw [nothing, List.append_nil] at all
          rw [all, ih further, List.getLast?_cons_cons]

/-- All that was offered was delivered if no offer breaks off. -/
theorem offered_length_eq_iff (rule : Rule) (tick : Nat) {offers : List Offer}
    (whole : offers.Pairwise fun earlier _ => ¬ rule.BreaksOff tick earlier) :
    (offers.flatMap Offer.found).length =
        ((offers.map (rule.accept tick)).flatMap fun call => call.delivered).length ↔
      ∀ offer ∈ offers, ¬ rule.BreaksOff tick offer := by
  rw [rule.offered_eq tick whole, List.length_append, Nat.add_eq_left, List.length_eq_zero_iff]
  rcases List.eq_nil_or_concat' offers with rfl | ⟨earlier, last, rfl⟩
  · simp
  · obtain ⟨_, _, across⟩ := List.pairwise_append.mp whole
    have others : ∀ offer ∈ earlier, ¬ rule.BreaksOff tick offer := fun offer member =>
      across offer member last (List.mem_singleton_self last)
    rw [List.getLast?_concat, Option.elim_some, List.forall_mem_append,
      and_iff_right others, List.forall_mem_singleton, ← leftover_ne_nil_iff, not_not]

end Rule

namespace Progress

/-- What is found for a rule that is let query a store, if anything is. -/
def queryOffers (iteration : Nat) (store : Store) (progress : Progress) : List Offer :=
  if progress.findings store = [] then
    []
  else
    [{ iteration, turn := 0, found := progress.findings store }]

/-- What is pending for a rule that is supplied, if anything is. -/
def supplyOffers (iteration : Nat) (db : Database) (progress : Progress) : List Offer :=
  if progress.pending db = [] then
    []
  else
    [{ iteration, turn := progress.cursor, found := progress.pending db }]

/-- A grouped rule that has counted nothing is offered just that when the tick is closed. -/
def idleOffers (iteration : Nat) (progress : Progress) : List Offer :=
  if progress.rule.kind = .grouped ∧ progress.fired = 0 then
    [{ iteration, turn := 0, found := [] }]
  else
    []

section Calls

variable (tick iteration : Nat) (progress : Progress)

theorem queryCalls_eq (store : Store) :
    progress.queryCalls tick iteration store =
      (progress.queryOffers iteration store).map (progress.rule.accept tick) := by
  unfold queryCalls queryOffers
  split <;> rfl

theorem supply_calls_eq (db : Database) :
    (progress.supply tick iteration db).2.2.1 =
      (progress.supplyOffers iteration db).map (progress.rule.accept tick) := by
  unfold supplyOffers
  rcases supply_cases tick iteration progress db with
    ⟨nothing, result⟩ | ⟨_, _, something, rfl, result⟩
  · rw [result, if_pos nothing]
    rfl
  · rw [result, if_neg something]
    rfl

theorem idleCalls_eq :
    progress.idleCalls tick iteration =
      (progress.idleOffers iteration).map (progress.rule.accept tick) := by
  unfold idleCalls idleOffers
  split <;> rfl

end Calls

/-! ## The count of a rule -/

/-- A rule has counted the matches of the offers so far. If its callback broke off, it did so
at the last of them, and the rule has retired. -/
structure Tallied (tick : Nat) (offers : List Offer) (progress : Progress) : Prop where
  counted : progress.fired = (offers.flatMap Offer.found).length
  whole : offers.Pairwise fun earlier _ => ¬ progress.rule.BreaksOff tick earlier
  retired : ∀ offer ∈ offers, progress.rule.BreaksOff tick offer → progress.retired = true

namespace Tallied

variable {tick : Nat} {offers : List Offer} {progress : Progress}

theorem start (tick : Nat) (rule : Rule) : (ofRule rule).Tallied tick [] where
  counted := rfl
  whole := .nil
  retired := nofun

/-- A rule that has not retired counts one more offer. -/
theorem offer (tallied : progress.Tallied tick offers) {offer : Offer}
    (whole : ∀ earlier ∈ offers, ¬ progress.rule.BreaksOff tick earlier) {next : Progress}
    (rule : next.rule = progress.rule)
    (counted : next.fired = progress.fired + offer.found.length)
    (retired : progress.rule.BreaksOff tick offer → next.retired = true) :
    next.Tallied tick (offers ++ [offer]) where
  counted := by
    rw [counted, tallied.counted, List.flatMap_append, List.length_append,
      List.flatMap_singleton]
  whole := by
    rw [rule, List.pairwise_append]
    refine ⟨tallied.whole, List.pairwise_singleton _ _, fun earlier member _ _ => ?_⟩
    exact whole earlier member
  retired := by
    rw [rule, List.forall_mem_append, List.forall_mem_singleton]
    exact ⟨fun earlier member breaksOff => absurd breaksOff (whole earlier member), retired⟩

theorem whole_of_waiting (tallied : progress.Tallied tick offers)
    (waiting : progress.retired = false) :
    ∀ earlier ∈ offers, ¬ progress.rule.BreaksOff tick earlier := by
  intro earlier member breaksOff
  rw [tallied.retired earlier member breaksOff] at waiting
  cases waiting

/-- A rule that is let query counts what it finds, and retires with it. -/
theorem queried (tallied : progress.Tallied tick offers) (iteration : Nat) (store : Store) :
    (progress.queried store).Tallied tick (offers ++ progress.queryOffers iteration store) := by
  unfold Progress.queried queryOffers
  by_cases nothing : progress.findings store = []
  · rw [if_pos nothing, if_pos nothing, List.append_nil]
    exact tallied
  · rw [if_neg nothing, if_neg nothing]
    -- a rule that finds something was waiting, so it has not broken off before
    have waiting : progress.retired = false := by
      by_contra retired
      exact nothing (findings_of_not_waiting (fun waits => retired waits.1) store)
    exact tallied.offer (tallied.whole_of_waiting waiting) rfl rfl fun _ => rfl

/-- A rule that is supplied counts what is pending, and retires if its callback fails. -/
theorem supplied (tallied : progress.Tallied tick offers) (iteration : Nat) (db : Database) :
    (progress.supply tick iteration db).1.Tallied tick
      (offers ++ progress.supplyOffers iteration db) := by
  unfold supplyOffers
  rcases supply_cases tick iteration progress db with
    ⟨nothing, result⟩ | ⟨call, _, something, rfl, result⟩
  · rw [result, if_pos nothing, List.append_nil]
    exact tallied
  · rw [result, if_neg something]
    have waiting : progress.retired = false := by
      by_contra retired
      exact something (pending_of_retired (Bool.eq_true_of_not_eq_false retired) db)
    exact tallied.offer (tallied.whole_of_waiting waiting) rfl rfl Rule.failure_of_breaksOff

/-- What a grouped rule is called with when the tick is closed adds nothing to its count. -/
theorem idle (tallied : progress.Tallied tick offers) (iteration : Nat) :
    progress.Tallied tick (offers ++ progress.idleOffers iteration) := by
  unfold idleOffers
  by_cases idle : progress.rule.kind = .grouped ∧ progress.fired = 0
  · rw [if_pos idle]
    have never := Rule.not_breaksOff_of_grouped idle.1 tick
    exact tallied.offer (fun earlier _ => never earlier) rfl rfl fun breaksOff =>
      absurd breaksOff (never _)
  · rw [if_neg idle, List.append_nil]
    exact tallied

end Tallied

end Progress

namespace Settling

/-! ## Iterations -/

/-- What the next iteration offers a rule: what it finds, and what is then pending for it. -/
def offers (tick : Nat) (s : Settling) (here : Progress) : List Offer :=
  here.queryOffers (s.iterations + 1) s.database.store ++
    (here.queried s.database.store).supplyOffers (s.iterations + 1) (s.midway tick)

/-- What a number of iterations offer the rule at a position. -/
def offersBy (tick : Nat) (s : Settling) (i iterations : Nat) : List Offer :=
  (List.range iterations).flatMap fun k =>
    ((s.stage tick k).progress[i]?).elim [] ((s.stage tick k).offers tick)

/-- All that the rule at a position is offered, if the tick is closed after some iterations. -/
def offersOf (tick : Nat) (s : Settling) (i iterations : Nat) : List Offer :=
  s.offersBy tick i iterations ++
    ((s.stage tick iterations).progress[i]?).elim []
      (Progress.idleOffers ((s.stage tick iterations).iterations + 1))

/-- The count of a rule, what it was offered, and its calls. -/
structure Tally (tick : Nat) (rule : Rule) (offers : List Offer) (calls : List Invocation)
    (fired : Nat) : Prop where
  /-- Every offer is a call, and there are no others. -/
  called : calls = offers.map (rule.accept tick)
  /-- The rule counts all that it is offered. -/
  counted : fired = (offers.flatMap Offer.found).length
  /-- This is what was delivered, and behind it what the last offer leaves over. -/
  offered : offers.flatMap Offer.found =
    (calls.flatMap fun call => call.delivered) ++ offers.getLast?.elim [] (rule.leftover tick)
  left : ∀ offer ∈ offers, rule.leftover tick offer ≠ [] ↔ rule.BreaksOff tick offer
  /-- A rule that counts something has been handed something. -/
  silent : fired = 0 ↔ (calls.flatMap fun call => call.delivered) = []
  /-- The count is that of the matches delivered if no offer breaks off, and only then. -/
  truthful : fired = (calls.flatMap fun call => call.delivered).length ↔
    ∀ offer ∈ offers, ¬ rule.BreaksOff tick offer

section Placed

variable (db : Database) {rules : List Rule} {i : Nat} {rule : Rule}
  (placed : rules[i]? = some rule) (tick : Nat)

include placed

/-- In every number of iterations, a rule counts what it is offered. -/
theorem tallied_stage (n : Nat) :
    ∃ here, ((start db rules).stage tick n).progress[i]? = some here ∧ here.rule = rule ∧
      here.Tallied tick ((start db rules).offersBy tick i n) := by
  induction n with
  | zero =>
      refine ⟨.ofRule rule, ?_, rfl, .start tick rule⟩
      change (rules.map Progress.ofRule)[i]? = _
      rw [List.getElem?_map, placed]
      rfl
  | succ n ih =>
      obtain ⟨here, hereEq, rfl, tallied⟩ := ih
      refine ⟨(((start db rules).stage tick n).supplied tick here).1, ?_, ?_, ?_⟩
      · rw [stage_succ, iterate_progress, List.getElem?_map, hereEq, Option.map_some]
      · exact supplied_rule tick _ here
      · rw [offersBy, List.range_succ, List.flatMap_append, List.flatMap_singleton, hereEq,
          Option.elim_some, offers, ← List.append_assoc]
        exact (tallied.queried _ _).supplied _ _

/-- Its calls in an iteration are those with what it is offered there. -/
theorem round_eq_map_offers (k : Nat) :
    (((start db rules).stage tick k).queryRound tick)[i]?.getD [] ++
        (((start db rules).stage tick k).supplyRound tick)[i]?.getD [] =
      (((start db rules).stage tick k).progress[i]?.elim []
        (((start db rules).stage tick k).offers tick)).map (rule.accept tick) := by
  obtain ⟨here, hereEq, rfl, _⟩ := tallied_stage db placed tick k
  rw [queryRound, supplyRound, List.getElem?_map, List.getElem?_map, hereEq, Option.map_some,
    Option.map_some, Option.getD_some, Option.getD_some, Option.elim_some, offers, List.map_append,
    Progress.queryCalls_eq, supplied, Progress.supply_calls_eq, Progress.queried_rule]

/-- All its calls are those with what it is offered. -/
theorem callsOf_eq_map_offers (n : Nat) :
    (start db rules).callsOf tick i n =
      ((start db rules).offersOf tick i n).map (rule.accept tick) := by
  have closing : (((start db rules).stage tick n).closeRound tick)[i]?.getD [] =
      (((start db rules).stage tick n).progress[i]?.elim []
        (Progress.idleOffers (((start db rules).stage tick n).iterations + 1))).map
          (rule.accept tick) := by
    obtain ⟨here, hereEq, rfl, _⟩ := tallied_stage db placed tick n
    rw [closeRound, List.getElem?_map, hereEq, Option.map_some, Option.getD_some,
      Option.elim_some, Progress.idleCalls_eq]
  rw [callsOf, offersOf, List.map_append, closing, offersBy, List.map_flatMap]
  congr 1
  exact List.flatMap_congr fun k _ => round_eq_map_offers db placed tick k

/-- What a rule has counted when a tick is closed, told by its position. -/
theorem tallies (n : Nat) :
    ∃ here, ((start db rules).stage tick n).progress[i]? = some here ∧ here.rule = rule ∧
      Tally tick rule ((start db rules).offersOf tick i n) ((start db rules).callsOf tick i n)
        here.fired := by
  obtain ⟨here, hereEq, rfl, soFar⟩ := tallied_stage db placed tick n
  have tallied : here.Tallied tick ((start db rules).offersOf tick i n) := by
    rw [offersOf, hereEq]
    exact soFar.idle _
  refine ⟨here, hereEq, rfl, ?_⟩
  rw [callsOf_eq_map_offers db placed]
  exact
    { called := rfl
      counted := tallied.counted
      offered := here.rule.offered_eq tick tallied.whole
      left := fun offer _ => here.rule.leftover_ne_nil_iff tick offer
      silent := by
        rw [tallied.counted, List.length_eq_zero_iff, List.flatMap_map, List.flatMap_eq_nil_iff,
          List.flatMap_eq_nil_iff]
        exact forall₂_congr fun offer _ =>
          (here.rule.accept_delivered_eq_nil_iff tick offer).symm
      truthful := by
        rw [tallied.counted]
        exact here.rule.offered_length_eq_iff tick tallied.whole }

end Placed

end Settling

end Blackboard
