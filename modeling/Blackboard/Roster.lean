import Blackboard.Program

/-!
# Running programs

A board is what runs and what it has contributed. `Board.sync` brings it in line
with a list of programs: what is no longer listed stops, what is new starts, and
what has another source text than before is started again. Programs that stay as
they are keep everything they own. A program whose registration failed is
running all the same, so it is not tried again before its source text changes.
-/

namespace Blackboard

/-- What is remembered of a running program. -/
structure Run where
  codeHash : CodeHash
  debugUrl : Option String
deriving DecidableEq, Repr

/-- The running programs. -/
abbrev Roster := Std.ExtTreeMap ProgramId Run

/-- The running programs and their contributions. -/
structure Board where
  roster : Roster := ∅
  world : World := ∅

/-- How a program stands to what is running. -/
inductive Standing where
  | absent
  /-- Running, with another source text. -/
  | outdated
  | current
deriving DecidableEq, Repr

/-- What bringing a board in line has changed. -/
structure Changes where
  started : List ProgramId := []
  restarted : List ProgramId := []
  stopped : List ProgramId := []
deriving DecidableEq, Repr

def Program.run (program : Program) : Run :=
  { codeHash := program.codeHash, debugUrl := program.debugUrl }

namespace Board

def standing (board : Board) (program : Program) : Standing :=
  match board.roster[program.id]? with
  | none => .absent
  | some run => if run.codeHash = program.codeHash then .current else .outdated

/-- Stops a program and removes everything it owns. -/
def stop (board : Board) (id : ProgramId) : Board where
  roster := board.roster.erase id
  world := board.world.purge id

/-- Starts a program, from nothing even if it was running. -/
def start (tick : Nat) (board : Board) (program : Program) : Board where
  roster := board.roster.insert program.id program.run
  world := board.world.purge program.id ++ program.registration tick

/-- Brings one program up to date. -/
def update (tick : Nat) (board : Board) (program : Program) : Board :=
  match board.standing program with
  | .current => { board with roster := board.roster.insert program.id program.run }
  | _ => board.start tick program

/-- Brings programs up to date, one after the other. -/
def updateAll (tick : Nat) : List Program → Board → Board × Changes
  | [], board => (board, {})
  | program :: rest, board =>
    let (after, changes) := updateAll tick rest (board.update tick program)
    (after, match board.standing program with
      | .absent => { changes with started := program.id :: changes.started }
      | .outdated => { changes with restarted := program.id :: changes.restarted }
      | .current => changes)

/-- The running programs that a list does not name, in ascending order. -/
def missingFrom (board : Board) (programs : List Program) : List ProgramId :=
  board.roster.keys.filter fun id => programs.all fun program => program.id != id

/-- Brings a board in line with programs of which no two share a name. -/
def sync (tick : Nat) (board : Board) (programs : List Program) : Board × Changes :=
  let stopped := board.missingFrom programs
  let (after, changes) := updateAll tick programs (stopped.foldl stop board)
  (after, { changes with stopped })

end Board

end Blackboard
