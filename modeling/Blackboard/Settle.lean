import Blackboard.Database
import Blackboard.World

/-!
# Settling

The rules of a tick are evaluated in iterations. In each, the ordinary rules
that are still waiting query the database in order; a rule that finds matches
is handed them and retires for the tick. Then the capture rules are handed what
the queries missed since they were last called, and what they claim is stored
as facts at once, so that waiting rules may find it in the next iteration. The
tick has settled when an iteration stores no fact that was not there before.

What rules contribute is kept as a trace of invocations. Only the claims of
capture rules reach the database; everything else is for the world after the
tick.
-/

namespace Blackboard

/-- What came of handing matches to a callback. -/
structure Delivery where
  /-- The matches for which the callback was run. -/
  delivered : List Match := []
  contribution : World := ∅
  /-- How the callback failed, if it did. -/
  failure : Option Failure := none

/-- A callback run of a rule. -/
structure Invocation extends Delivery where
  rule : Rule
  iteration : Nat

namespace Rule

/-- The context of a call of the rule's callback in a tick. -/
def context (rule : Rule) (tick turn : Nat) : Context where
  source := rule.source
  isDynamic := true
  origin := .call rule.id tick turn

/-- The error that a failure of the rule leaves behind. -/
def failureEntry (rule : Rule) (failure : Failure) : ErrorEntry where
  source := rule.source
  isDynamic := true
  message := failure.message
  site := some rule.id

/-- What a reaction adds to the world: what its actions add, and the error if it fails. -/
def effect (rule : Rule) (context : Context) (reaction : Reaction) : World :=
  let made := context.contribution reaction.actions
  match reaction.outcome.failure? with
  | some failure => made ++ World.ofError (rule.failureEntry failure)
  | none => made

/-- Hands matches over one at a time, up to the first for which the callback fails. -/
def deliverEach (rule : Rule) (tick : Nat) (callback : Context → Match → Reaction) :
    Nat → List Match → Delivery
  | _, [] => {}
  | turn, m :: rest =>
    let context := rule.context tick turn
    let reaction := callback context m
    match reaction.outcome.failure? with
    | some failure =>
      { delivered := [m], contribution := rule.effect context reaction, failure }
    | none =>
      let further := rule.deliverEach tick callback (turn + 1) rest
      { delivered := m :: further.delivered
        contribution := rule.effect context reaction ++ further.contribution
        failure := further.failure }

/-- Hands all matches over at once. -/
def deliverAll (rule : Rule) (tick : Nat) (callback : Context → List Match → Reaction)
    (matches_ : List Match) : Delivery :=
  let context := rule.context tick 0
  let reaction := callback context matches_
  { delivered := matches_
    contribution := rule.effect context reaction
    failure := reaction.outcome.failure? }

/-- Hands matches to the rule's callback. The calls of an each or a capture rule
are counted from `turn`. -/
def deliver (rule : Rule) (tick turn : Nat) (matches_ : List Match) : Delivery :=
  match rule.body with
  | .each _ callback => rule.deliverEach tick callback turn matches_
  | .grouped _ callback => rule.deliverAll tick callback matches_
  | .capture _ callback => rule.deliverEach tick callback turn matches_

/-- Hands matches to the rule's callback in an iteration. -/
def invoke (rule : Rule) (tick iteration turn : Nat) (matches_ : List Match) : Invocation :=
  { rule.deliver tick turn matches_ with rule, iteration }

end Rule

/-- How far a rule has come in a tick. -/
structure Progress where
  rule : Rule
  /-- How many matches were found for it. -/
  fired : Nat := 0
  /-- It takes no further part. -/
  retired : Bool := false
  /-- How many captures of its name it has been handed. -/
  cursor : Nat := 0

/-- The state of settling, at the end of an iteration. -/
structure Settling where
  database : Database
  progress : List Progress
  iterations : Nat := 0
  settled : Bool := false
  trace : List Invocation := []

/-- What an iteration has come to, part of the way through the rules. -/
structure Pass where
  database : Database
  progress : List Progress := []
  trace : List Invocation := []
  /-- A fact was stored that was not there before. -/
  grew : Bool := false

namespace Progress

/-- The start of a tick. -/
def ofRule (rule : Rule) : Progress := { rule }

/-- Lets an ordinary rule that is waiting query the database. -/
def query (tick iteration : Nat) (progress : Progress) (db : Database) :
    Progress × Database × List Invocation :=
  if progress.retired || progress.rule.kind == .capture then
    (progress, db, [])
  else
    let (found, db) := db.query progress.rule.patterns
    if found.isEmpty then
      (progress, db, [])
    else
      ({ progress with fired := progress.fired + found.length, retired := true }, db,
        [progress.rule.invoke tick iteration 0 found])

/-- The captures that a capture rule has not been handed yet. -/
def pending (progress : Progress) (db : Database) : List Match :=
  if progress.retired || progress.rule.kind != .capture then
    []
  else
    match progress.rule.patterns.head? with
    | some pattern => (db.captures.since? pattern.name progress.cursor).getD []
    | none => []

end Progress

namespace Database

/-- Stores claims as facts, and says whether one of them was not there before. -/
def learn (db : Database) : List Claim → Database × Bool
  | [] => (db, false)
  | claim :: rest =>
    let novel := Store.accepts claim && !db.contains claim
    let (db, grew) := (db.insert claim).learn rest
    (db, novel || grew)

end Database

namespace Progress

/-- Hands a capture rule its pending captures and stores what it claims. -/
def supply (tick iteration : Nat) (progress : Progress) (db : Database) :
    Progress × Database × List Invocation × Bool :=
  let pending := progress.pending db
  if pending.isEmpty then
    (progress, db, [], false)
  else
    let invocation := progress.rule.invoke tick iteration progress.cursor pending
    let (db, grew) := db.learn invocation.contribution.claims
    ({ progress with
        fired := progress.fired + pending.length
        cursor := progress.cursor + pending.length
        retired := invocation.failure.isSome },
      db, [invocation], grew)

end Progress

namespace Settling

/-- Lets all ordinary rules query, in order. -/
def queryAll (tick iteration : Nat) : List Progress → Database → Pass
  | [], database => { database }
  | progress :: rest, db =>
    let (progress, db, invocations) := progress.query tick iteration db
    let further := queryAll tick iteration rest db
    { further with
      progress := progress :: further.progress
      trace := invocations ++ further.trace }

/-- Supplies all capture rules, in order. -/
def supplyAll (tick iteration : Nat) : List Progress → Database → Pass
  | [], database => { database }
  | progress :: rest, db =>
    let (progress, db, invocations, grew) := progress.supply tick iteration db
    let further := supplyAll tick iteration rest db
    { further with
      progress := progress :: further.progress
      trace := invocations ++ further.trace
      grew := grew || further.grew }

/-- The start of a tick. -/
def start (database : Database) (rules : List Rule) : Settling where
  database
  progress := rules.map Progress.ofRule

/-- One iteration. -/
def iterate (tick : Nat) (s : Settling) : Settling :=
  let iteration := s.iterations + 1
  let queried := queryAll tick iteration s.progress s.database
  let supplied := supplyAll tick iteration queried.progress queried.database
  { database := supplied.database
    progress := supplied.progress
    iterations := iteration
    settled := !supplied.grew
    trace := s.trace ++ queried.trace ++ supplied.trace }

/-- Iterates until the tick has settled, or up to a ceiling; at least once in
any case. `none` says that the fuel, one unit for each iteration, did not reach
that far. -/
def run (tick : Nat) (ceiling : Option Nat) : Nat → Settling → Option Settling
  | 0, _ => none
  | fuel + 1, s =>
    let s := s.iterate tick
    if s.settled || ceiling.any (fun limit => max limit 1 ≤ s.iterations) then
      some s
    else
      run tick ceiling fuel s

/-- Hands every grouped rule that found nothing an empty list of matches. -/
def close (tick : Nat) (s : Settling) : List Invocation :=
  (s.progress.filter fun progress => progress.rule.kind == .grouped && progress.fired == 0).map
    fun progress => progress.rule.invoke tick (s.iterations + 1) 0 []

end Settling

end Blackboard
