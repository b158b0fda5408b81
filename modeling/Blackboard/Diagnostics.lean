import Blackboard.Roster

/-!
# Diagnostics

A report shows, for one tick and program by program, the errors, how often each
rule has fired, and the logs. Every running program has an entry, even if there
is nothing to show; whoever else owns something has one too.
-/

namespace Blackboard

/-- How often a rule fired in a tick. -/
structure RuleRecord where
  rule : Origin
  kind : RuleKind
  fired : Nat
deriving DecidableEq, Repr

/-- What a report shows of one program. -/
structure ProgramReport where
  debugUrl : Option String := none
  errors : List ErrorEntry := []
  rules : List RuleRecord := []
  logs : List LogEntry := []

/-- The diagnostics of a tick. -/
structure Report where
  tick : Nat := 0
  programs : Std.ExtTreeMap ProgramId ProgramReport := ∅

namespace ProgramReport

/-- Puts an error in front of the others. -/
def consError (report : ProgramReport) (entry : ErrorEntry) : ProgramReport :=
  { report with errors := entry :: report.errors }

def consRule (report : ProgramReport) (record : RuleRecord) : ProgramReport :=
  { report with rules := record :: report.rules }

def consLog (report : ProgramReport) (entry : LogEntry) : ProgramReport :=
  { report with logs := entry :: report.logs }

end ProgramReport

namespace Report

instance : Inhabited Report := ⟨{}⟩

/-- Changes the entry of a program, which is empty if there was none. -/
def modify (report : Report) (id : ProgramId) (change : ProgramReport → ProgramReport) : Report :=
  { report with programs := report.programs.alter id fun held => some (change (held.getD {})) }

/-- A report with an empty entry for each running program. -/
def blank (tick : Nat) (running : List (ProgramId × Option String)) : Report where
  tick
  programs := running.foldl (fun programs (id, debugUrl) => programs.insert id { debugUrl }) ∅

/-- The record of a rule that fired so often. -/
def record (rule : Rule) (fired : Nat) : RuleRecord := { rule := rule.id, kind := rule.kind, fired }

/-- The report on the running programs, a world and the rules evaluated in a
tick. Entries are put in from the last to the first, each in front of those of
its program. -/
def collect (tick : Nat) (running : List (ProgramId × Option String)) (world : World)
    (rules : List (Rule × Nat)) : Report :=
  let report := blank tick running
  let report := world.errors.foldr (fun entry report =>
    report.modify entry.source (·.consError entry)) report
  let report := rules.foldr (fun (rule, fired) report =>
    report.modify rule.source (·.consRule (record rule fired))) report
  world.logs.foldr (fun entry report => report.modify entry.source (·.consLog entry)) report

def program? (report : Report) (id : ProgramId) : Option ProgramReport := report.programs[id]?

/-- The entries in ascending order of the programs. -/
def toList (report : Report) : List (ProgramId × ProgramReport) := report.programs.toList

/-- The programs that have a debugger, each with the place where it listens. -/
def routes (report : Report) : List (String × ProgramId × ProgramReport) :=
  report.toList.filterMap fun (id, entry) => entry.debugUrl.map fun url => (url, id, entry)

/-- The number of errors of all programs together. -/
def errorCount (report : Report) : Nat := (report.toList.flatMap fun entry => entry.2.errors).length

end Report

namespace Roster

/-- The running programs in ascending order, each with the place where its
debugger listens. -/
def running (roster : Roster) : List (ProgramId × Option String) :=
  roster.toList.map fun (id, run) => (id, run.debugUrl)

end Roster

/-! ## Reports as lines -/

namespace Report

/-- An error as a document. -/
def errorJson (entry : ErrorEntry) : Json :=
  .object [("source", .text entry.source.text), ("is_dynamic", .bool entry.isDynamic),
    ("message", .text entry.message), ("located", .bool entry.site.isSome)]

/-- The record of a rule as a document. -/
def ruleJson (record : RuleRecord) : Json :=
  .object [("kind", .text record.kind.name), ("fired_count", .int record.fired)]

/-- A log entry as a document. -/
def logJson (entry : LogEntry) : Json :=
  .object [("source", .text entry.source.text), ("is_dynamic", .bool entry.isDynamic),
    ("value", entry.document)]

/-- The entry of a program as a document. -/
def programJson (entry : ProgramReport) : Json :=
  let debugUrl := match entry.debugUrl with
    | some url => [("debug_url", Json.text url)]
    | none => []
  .object (debugUrl ++
    [("errors", .array (entry.errors.map errorJson)),
      ("matches", .array (entry.rules.map ruleJson)),
      ("logs", .array (entry.logs.map logJson))])

/-- The report as a document. -/
def toJson (report : Report) : Json :=
  .object [("tick", .int report.tick),
    ("programs", .object (report.toList.map fun (id, entry) => (id.text, programJson entry)))]

/-- The report as one line of text. -/
def line (report : Report) : String := report.toJson.render ++ "\n"

end Report

/-- Something that texts can be written to, with the states `σ`. Both operations
can fail, and then say why. -/
structure Writer (σ : Type) where
  write : String → σ → Except String σ
  flush : σ → Except String σ

namespace Writer

/-- Collects what is written. -/
def toText : Writer String where
  write text written := .ok (written ++ text)
  flush written := .ok written

/-- Publishes a report: writes its line and flushes. -/
def publish {σ : Type} (writer : Writer σ) (report : Report) (state : σ) : Except Fault σ :=
  match writer.write report.line state >>= writer.flush with
  | .ok state => .ok state
  | .error message => .error (.failure (.telemetryUnavailable message))

end Writer

end Blackboard
