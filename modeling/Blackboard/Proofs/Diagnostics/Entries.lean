import Blackboard.Diagnostics
import Mathlib.Data.List.Perm.Basic

/-!
# The entries of a report

Errors, records and logs are put into a report one by one, each under the program that
owns it. So the entry of a program shows what the program owns, in order, and there is an
entry for every program that runs or owns something (`Report.program?_collect`). Nothing
is lost and nothing shown twice (`Report.errorCount_collect`).
-/

namespace Blackboard

namespace ProgramReport

theorem foldr_consError (entries : List ErrorEntry) (report : ProgramReport) :
    entries.foldr (fun entry report => report.consError entry) report =
      { report with errors := entries ++ report.errors } := by
  induction entries with
  | nil => rfl
  | cons entry entries ih => rw [List.foldr_cons, ih, consError, List.cons_append]

theorem foldr_consRule {ι : Type} (record : ι → RuleRecord) (items : List ι)
    (report : ProgramReport) :
    items.foldr (fun item report => report.consRule (record item)) report =
      { report with rules := items.map record ++ report.rules } := by
  induction items with
  | nil => rfl
  | cons item items ih => rw [List.foldr_cons, ih, consRule, List.map_cons, List.cons_append]

theorem foldr_consLog (entries : List LogEntry) (report : ProgramReport) :
    entries.foldr (fun entry report => report.consLog entry) report =
      { report with logs := entries ++ report.logs } := by
  induction entries with
  | nil => rfl
  | cons entry entries ih => rw [List.foldr_cons, ih, consLog, List.cons_append]

end ProgramReport

namespace Report

/-- What a report shows of a program. -/
def entry (report : Report) (id : ProgramId) : ProgramReport := (report.program? id).getD {}

/-! ## Putting something in -/

theorem program?_modify (report : Report) (id other : ProgramId)
    (change : ProgramReport → ProgramReport) :
    (report.modify id change).program? other =
      if id = other then some (change (report.entry other)) else report.program? other := by
  unfold modify entry program?
  rw [Std.ExtTreeMap.getElem?_alter]
  by_cases same : id = other
  · subst same
    simp
  · simp [same]

section Fold

variable {ι : Type} (owner : ι → ProgramId) (put : ι → ProgramReport → ProgramReport)
  (items : List ι) (report : Report) (id : ProgramId)

theorem tick_foldr_modify :
    (items.foldr (fun item report => report.modify (owner item) (put item)) report).tick =
      report.tick := by
  induction items with
  | nil => rfl
  | cons item items ih => exact ih

/-- What is put in adds entries for its owners. -/
theorem program?_foldr_modify_eq_none_iff :
    (items.foldr (fun item report => report.modify (owner item) (put item)) report).program? id =
        none ↔
      (items.filter fun item => owner item == id) = [] ∧ report.program? id = none := by
  induction items with
  | nil => simp
  | cons item items ih =>
      rw [List.foldr_cons, program?_modify, List.filter_cons]
      by_cases here : owner item = id
      · simp [here]
      · rw [if_neg here, ih, if_neg (by simpa using here)]

/-- What is put in changes the entries of its owners. -/
theorem entry_foldr_modify :
    (items.foldr (fun item report => report.modify (owner item) (put item)) report).entry id =
      (items.filter fun item => owner item == id).foldr put (report.entry id) := by
  induction items with
  | nil => rfl
  | cons item items ih =>
      rw [List.foldr_cons, entry, program?_modify, List.filter_cons]
      by_cases here : owner item = id
      · rw [if_pos here, if_pos (beq_iff_eq.mpr here), List.foldr_cons, Option.getD_some, ih]
      · rw [if_neg here, if_neg (by simpa using here), ← ih, entry]

end Fold

theorem program?_foldl_insert (running : List (ProgramId × Option String))
    (programs : Std.ExtTreeMap ProgramId ProgramReport) (id : ProgramId) :
    (running.foldl (fun programs (id, debugUrl) => programs.insert id { debugUrl })
        programs)[id]? =
      ((running.reverse.find? fun entry => entry.1 == id).map
        fun entry => ({ debugUrl := entry.2 } : ProgramReport)).or programs[id]? := by
  induction running generalizing programs with
  | nil => rfl
  | cons entry running ih =>
      rw [List.foldl_cons, ih, List.reverse_cons, List.find?_append,
        Std.ExtTreeMap.getElem?_insert]
      cases running.reverse.find? fun other => other.1 == id with
      | some later => rfl
      | none =>
          by_cases here : entry.1 = id
          · simp [here]
          · simp [here]

/-- Of the programs that run there is an entry to begin with. -/
theorem program?_blank (tick : Nat) (running : List (ProgramId × Option String))
    (id : ProgramId) :
    (blank tick running).program? id =
      (running.reverse.find? fun entry => entry.1 == id).map fun entry =>
        { debugUrl := entry.2 } := by
  apply (program?_foldl_insert running ∅ id).trans
  rw [Std.ExtTreeMap.getElem?_empty, Option.or_none]

theorem program?_blank_eq_none_iff (tick : Nat) (running : List (ProgramId × Option String))
    (id : ProgramId) :
    (blank tick running).program? id = none ↔ id ∉ running.map Prod.fst := by
  rw [program?_blank, Option.map_eq_none_iff, List.find?_eq_none]
  simp only [List.mem_reverse, beq_iff_eq, List.mem_map, not_exists, not_and]

theorem entry_blank (tick : Nat) (running : List (ProgramId × Option String)) (id : ProgramId) :
    (blank tick running).entry id =
      { debugUrl := (running.reverse.find? fun entry => entry.1 == id).bind Prod.snd } := by
  rw [entry, program?_blank]
  cases running.reverse.find? fun entry => entry.1 == id <;> rfl

/-! ## The report of a tick -/

section Collect

variable (tick : Nat) (running : List (ProgramId × Option String)) (world : World)
  (rules : List (Rule × Nat))

theorem tick_collect : (collect tick running world rules).tick = tick := by
  unfold collect
  dsimp only
  rw [tick_foldr_modify LogEntry.source,
    tick_foldr_modify (fun entry : Rule × Nat => entry.1.source),
    tick_foldr_modify ErrorEntry.source]
  rfl

/-- The records of the rules of a program. -/
def recordsOf (rules : List (Rule × Nat)) (id : ProgramId) : List RuleRecord :=
  (rules.filter fun entry => entry.1.source == id).map fun entry => record entry.1 entry.2

/-- A program has an entry if it runs or owns something that a report shows. -/
theorem program?_collect_eq_none_iff (id : ProgramId) :
    (collect tick running world rules).program? id = none ↔
      world.logsOf id = [] ∧ recordsOf rules id = [] ∧ world.errorsOf id = [] ∧
        id ∉ running.map Prod.fst := by
  rw [← program?_blank_eq_none_iff tick, recordsOf, List.map_eq_nil_iff]
  unfold collect
  dsimp only
  rw [program?_foldr_modify_eq_none_iff LogEntry.source,
    program?_foldr_modify_eq_none_iff (fun entry : Rule × Nat => entry.1.source),
    program?_foldr_modify_eq_none_iff ErrorEntry.source]
  rfl

/-- The entry of a program shows where its debugger listens and, in order, all that it owns. -/
theorem entry_collect (id : ProgramId) :
    (collect tick running world rules).entry id =
      { debugUrl := (running.reverse.find? fun entry => entry.1 == id).bind Prod.snd
        errors := world.errorsOf id
        rules := recordsOf rules id
        logs := world.logsOf id } := by
  unfold collect
  dsimp only
  rw [entry_foldr_modify LogEntry.source,
    entry_foldr_modify (fun entry : Rule × Nat => entry.1.source),
    entry_foldr_modify ErrorEntry.source, entry_blank, ProgramReport.foldr_consError,
    ProgramReport.foldr_consRule, ProgramReport.foldr_consLog]
  simp only [List.append_nil]
  rfl

end Collect

/-- The programs of a roster, as a report is told of them. -/
theorem mem_running_iff (roster : Roster) (id : ProgramId) :
    id ∈ roster.running.map Prod.fst ↔ roster.contains id = true := by
  have names : roster.running.map Prod.fst = roster.keys := by
    rw [← Std.ExtTreeMap.map_fst_toList_eq_keys, Roster.running, List.map_map]
    rfl
  rw [names, Std.ExtTreeMap.mem_keys, Std.ExtTreeMap.mem_iff_contains]

/-! ## All entries together -/

/-- Items that are listed owner by owner are all there. -/
theorem perm_flatMap_owned {ι : Type} (owner : ι → ProgramId) {ids : List ProgramId}
    (nodup : ids.Nodup) {items : List ι} (covered : ∀ item ∈ items, owner item ∈ ids) :
    (ids.flatMap fun id => items.filter fun item => owner item == id).Perm items := by
  induction ids generalizing items with
  | nil =>
      have none : items = [] := List.eq_nil_iff_forall_not_mem.mpr fun item member => by
        cases covered item member
      rw [none]
      rfl
  | cons first ids ih =>
      obtain ⟨fresh, restNodup⟩ := List.nodup_cons.mp nodup
      -- the other owners own nothing that `first` owns, so they find all of theirs in the rest
      let others := items.filter fun item => !(owner item == first)
      have further : (ids.flatMap fun id => others.filter fun item => owner item == id).Perm
          others := by
        refine ih restNodup fun item member => ?_
        obtain ⟨held, other⟩ := List.mem_filter.mp member
        exact (List.mem_cons.mp (covered item held)).resolve_left (by simpa using other)
      have same : ∀ id ∈ ids, (items.filter fun item => owner item == id) =
          others.filter fun item => owner item == id := by
        intro id listed
        rw [List.filter_filter]
        refine List.filter_congr fun item _ => ?_
        by_cases here : owner item = id
        · have distinct : id ≠ first := fun same => fresh (same ▸ listed)
          simp [here, distinct]
        · simp [here]
      rw [List.flatMap_cons, List.flatMap_congr same]
      exact (further.append_left _).trans (List.filter_append_perm _ items)

theorem entry_of_mem_toList {report : Report} {id : ProgramId} {held : ProgramReport}
    (member : (id, held) ∈ report.toList) : report.entry id = held := by
  have found := Std.ExtTreeMap.mem_toList_iff_getElem?_eq_some.mp member
  rw [entry, program?, found]
  rfl

/-- The entries of a report, listed by the programs that have one. -/
theorem flatMap_toList {α : Type} (report : Report)
    (shown : ProgramId → ProgramReport → List α) :
    (report.toList.flatMap fun entry => shown entry.1 entry.2) =
      report.programs.keys.flatMap fun id => shown id (report.entry id) := by
  rw [← Std.ExtTreeMap.map_fst_toList_eq_keys, List.flatMap_map]
  apply List.flatMap_congr
  intro held member
  rw [entry_of_mem_toList member]

/-- A report counts every error of the world once. -/
theorem errorCount_collect (tick : Nat) (running : List (ProgramId × Option String))
    (world : World) (rules : List (Rule × Nat)) :
    (collect tick running world rules).errorCount = world.errors.length := by
  unfold errorCount
  rw [flatMap_toList _ fun _ entry => entry.errors]
  simp only [entry_collect]
  refine (perm_flatMap_owned ErrorEntry.source Std.ExtTreeMap.nodup_keys ?_).length_eq
  intro error member
  rw [Std.ExtTreeMap.mem_keys, Std.ExtTreeMap.mem_iff_isSome_getElem?, Option.isSome_iff_ne_none]
  change (collect tick running world rules).program? error.source ≠ none
  rw [ne_eq, program?_collect_eq_none_iff]
  rintro ⟨_, _, none, _⟩
  exact List.filter_eq_nil_iff.mp none error member (beq_self_eq_true _)

end Report

end Blackboard
