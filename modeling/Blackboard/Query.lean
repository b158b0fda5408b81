import Blackboard.Match
import Blackboard.Store

/-!
# Queries

A query is a list of patterns, joined from left to right. Under a match, one
pattern is looked up with a single probe of the index: its first constant, or
the first of its variables that the match binds, selects the candidates, and
the remaining constants and the repeated variables filter them. A first
constant without a key selects nothing, so all tuples of the name are examined.

A pattern that finds nothing under some match is a *miss*. The answer to a
query holds the matches and the misses, both in the order in which they came up.
-/

namespace Blackboard

/-- How the arguments of a pattern constrain a tuple, under a match. -/
structure Plan where
  /-- Values that the tuple holds at a position: constants and bound variables. -/
  constants : List (Nat × Value) := []
  /-- Unbound variables, each at its first position. -/
  free : List (Nat × String) := []
  /-- Positions of equal values: the first and a later one of an unbound variable. -/
  equal : List (Nat × Nat) := []

namespace Plan

/-- The plan for arguments from a position on, after the unbound variables
`seen` at earlier positions. -/
def build (context : Match) (seen : List (Nat × String)) (position : Nat) : List Arg → Plan
  | [] => {}
  | .val value :: rest =>
    let plan := build context seen (position + 1) rest
    { plan with constants := (position, value) :: plan.constants }
  | .var x :: rest =>
    match context.get? x, seen.find? fun earlier => earlier.2 == x with
    | some value, _ =>
      let plan := build context seen (position + 1) rest
      { plan with constants := (position, value) :: plan.constants }
    | none, some (first, _) =>
      let plan := build context seen (position + 1) rest
      { plan with equal := (first, position) :: plan.equal }
    | none, none =>
      let plan := build context (seen ++ [(position, x)]) (position + 1) rest
      { plan with free := (position, x) :: plan.free }

/-- The plan for the arguments of a pattern. -/
def ofArgs (args : List Arg) (context : Match) : Plan := build context [] 0 args

/-- Whether a tuple holds these values; `none` if it has no such position. -/
def holds? (tuple : Tuple) : List (Nat × Value) → Option Bool
  | [] => some true
  | (position, value) :: rest => do
    let held ← tuple[position]?
    if held == value then holds? tuple rest else return false

/-- Whether a tuple holds equal values; `none` if it has no such position. -/
def holdsEqual? (tuple : Tuple) : List (Nat × Nat) → Option Bool
  | [] => some true
  | (first, later) :: rest => do
    let a ← tuple[first]?
    let b ← tuple[later]?
    if a == b then holdsEqual? tuple rest else return false

/-- The match with these variables bound to values of a tuple; `none` if it has
no such position. -/
def project? (tuple : Tuple) (context : Match) : List (Nat × String) → Option Match
  | [] => some context
  | (position, x) :: rest => do
    let value ← tuple[position]?
    project? tuple (context.bind x value) rest

/-- What a candidate makes of a match: an extended match, or nothing if it does
not satisfy the filters and the repeated variables. The outer `none` says that
the plan looked beyond the end of the tuple. -/
def extend? (plan : Plan) (filters : List (Nat × Value)) (context : Match) (tuple : Tuple) :
    Option (Option Match) := do
  if ← holds? tuple filters then
    if ← holdsEqual? tuple plan.equal then
      return some (← project? tuple context plan.free)
  return none

end Plan

/-- What a query finds, and what it misses. -/
structure Answer where
  found : List Match := []
  /-- Patterns that found nothing, each with the match under which it was tried. -/
  misses : List (Claim × Match) := []

namespace Store

/-- The tuples to examine for a plan, and the constants still to be checked. -/
def candidates (store : Store) (name : String) (plan : Plan) :
    Array Tuple × List (Nat × Value) :=
  match plan.constants with
  | [] => (store.tuples name, [])
  | (position, value) :: rest =>
    if value.indexKey?.isSome then
      (store.tuplesAt name position value, rest)
    else
      (store.tuples name, plan.constants)

/-- Extends a match in every way in which one pattern allows it. -/
def extensions (store : Store) (pattern : Claim) (context : Match) : List Match :=
  let plan := Plan.ofArgs pattern.args context
  let (tuples, filters) := store.candidates pattern.name plan
  tuples.toList.filterMap fun tuple =>
    if tuple.length = pattern.args.length then
      (plan.extend? filters context tuple).join
    else
      none

/-- Extends each of the given matches by one pattern. -/
def join (store : Store) (pattern : Claim) (contexts : List Match) : Answer :=
  let results := contexts.map fun context => (context, store.extensions pattern context)
  let failing := results.filter fun result => result.2.isEmpty
  { found := results.flatMap fun result => result.2
    misses := failing.map fun result => (pattern, result.1) }

/-- Joins patterns to the given matches; as soon as no match is left, the
remaining patterns are not tried. -/
def joinAll (store : Store) : List Claim → List Match → Answer
  | [], contexts => { found := contexts }
  | pattern :: rest, contexts =>
    let here := store.join pattern contexts
    if here.found.isEmpty then
      here
    else
      let further := store.joinAll rest here.found
      { further with misses := here.misses ++ further.misses }

/-- The answer to a conjunction of patterns. -/
def answer (store : Store) (patterns : List Claim) : Answer := store.joinAll patterns [∅]

end Store

end Blackboard
