import Blackboard.BaseFacts
import Blackboard.Diagnostics
import Blackboard.Settings
import Blackboard.Settle

/-!
# The scheduler

A scheduler evaluates a changing list of programs tick by tick. A tick brings
the running programs in line with the list, stores the claims of the world and
the base facts, and lets the rules of the world settle on them. What callbacks
contributed in the tick before is then forgotten, and what they contribute now
takes its place: a claim that a callback makes is a fact in the next tick, and
in no other.
-/

namespace Blackboard

/-- The state of a scheduler between two ticks. -/
structure Scheduler where
  settings : Settings
  baseFacts : BaseFacts
  /-- How many ticks have passed. -/
  ticks : Nat := 0
  board : Board := {}
  /-- The facts of the last tick. -/
  database : Database := ∅
  /-- The diagnostics of the last tick. -/
  diagnostics : Report := {}

/-- A summary of a tick. -/
structure TickReport where
  tick : Nat
  iterations : Nat
  /-- Whether the tick settled before it reached the limit. -/
  settled : Bool
  /-- How many rules found at least one match. -/
  rulesFired : Nat
  facts : Nat
  errors : Nat
deriving DecidableEq, Repr

namespace Database

/-- Registers the templates of capture rules. -/
def registerTemplates (db : Database) (rules : List Rule) : Database :=
  rules.foldl (fun db rule => match rule.body with
    | .capture pattern _ => (db.register pattern).toOption.getD db
    | _ => db) db

end Database

namespace Settling

/-- Lets a tick settle. Under a limit it takes at most that many iterations, and
at least one; without a limit it takes as many as it needs, unless the patience
is exhausted before. -/
def settle (tick : Nat) (limit : Option Nat) (patience : Nat) (s : Settling) : Option Settling :=
  s.run tick limit (limit.elim patience fun limit => max limit 1)

/-- How often each rule has fired. -/
def fired (s : Settling) : List (Rule × Nat) :=
  s.progress.map fun progress => (progress.rule, progress.fired)

/-- The error that a tick leaves behind if it reached the limit and had not settled. -/
def limitEntry (limit : Nat) : ErrorEntry where
  source := .core
  isDynamic := true
  message := (Failure.settleLimitExceeded limit).message
  site := none

/-- What the rules of a tick contribute: what the loop contributed, the error of
the loop if it did not settle, and what closing it contributes. -/
def contribution (tick : Nat) (limit : Option Nat) (s : Settling) : World :=
  let complaint := match limit with
    | some limit => if s.settled then ∅ else World.ofError (limitEntry limit)
    | none => ∅
  World.concat (s.trace.map fun invocation => invocation.contribution) ++ complaint ++
    World.concat ((s.close tick).map fun invocation => invocation.contribution)

end Settling

namespace Scheduler

/-- A scheduler with the standard base facts, before its first tick. -/
def ofSettings (settings : Settings) : Scheduler :=
  { settings, baseFacts := BaseFacts.core settings.viewport none }

def limit (s : Scheduler) : Option Nat := s.settings.maxSettleIterations.map UInt64.toNat

/-- The board after it was brought in line with a list of programs. Of programs
that share a name the first one counts. -/
def synced (s : Scheduler) (programs : List Program) : Board :=
  (s.board.sync (s.ticks + 1) (Program.firstById programs)).1

/-- The facts that a tick starts from: what the world claims, then the base facts. -/
def initialFacts (s : Scheduler) (board : Board) (millis : Int64) (programs : List Program) :
    List Claim :=
  board.world.claims ++ s.baseFacts { tick := s.ticks + 1, millis } (Program.firstById programs)

/-- The start of the evaluation of a tick. -/
def opening (s : Scheduler) (board : Board) (millis : Int64) (programs : List Program) : Settling :=
  let db := (∅ : Database).insertAll (s.initialFacts board millis programs)
  Settling.start (db.registerTemplates board.world.rules) board.world.rules

/-- The end of a tick whose evaluation has come to an end: its summary, and the
scheduler for the next tick. -/
def conclude (s : Scheduler) (board : Board) (settling : Settling) : TickReport × Scheduler :=
  let tick := s.ticks + 1
  let world := board.world.retainStatic ++ settling.contribution tick s.limit
  ({ tick
     iterations := settling.iterations
     settled := settling.settled
     rulesFired := settling.progress.countP fun progress => 0 < progress.fired
     facts := settling.database.store.size
     errors := world.errors.length },
   { s with
     ticks := tick
     board := { board with world }
     database := settling.database
     diagnostics := Report.collect tick board.roster.running world settling.fired })

/-- One tick with a list of programs, at a time of the clock. `none` says that
there is no limit on iterations and that the patience was exhausted. -/
def tick? (s : Scheduler) (patience : Nat) (millis : Int64) (programs : List Program) :
    Option (TickReport × Scheduler) :=
  let board := s.synced programs
  ((s.opening board millis programs).settle (s.ticks + 1) s.limit patience).map (s.conclude board)

/-- The running programs in ascending order. -/
def runningPrograms (s : Scheduler) : List ProgramId := s.board.roster.keys

def isRunning (s : Scheduler) (id : ProgramId) : Bool := s.board.roster.contains id

end Scheduler

end Blackboard
