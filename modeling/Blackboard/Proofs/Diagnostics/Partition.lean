import Blackboard.Proofs.Diagnostics.Entries
import Mathlib.Data.List.Nodup
import Mathlib.Data.String.Basic

/-!
# A report loses nothing

A report is told of the running programs, a world and the rules of a tick. It has an entry
for each program that runs or owns something, in ascending order, and these entries share
out what there is to show: everything is shown once, by the entry of its owner and in its
order (`Report.collect_partitions`).
-/

namespace Blackboard

namespace Report

/-- Items are shared out among the entries of a report. Each is shown once, by the entry of
its owner, and an entry shows the items of its program in the order of the list. -/
structure Shares {ι α : Type} (report : Report) (shown : ProgramReport → List α) (items : List ι)
    (owner : ι → ProgramId) (display : ι → α) : Prop where
  once : (report.toList.flatMap fun entry => (shown entry.2).map fun item => (entry.1, item)).Perm
    (items.map fun item => (owner item, display item))
  inOrder : ∀ id entry, (id, entry) ∈ report.toList →
    shown entry = (items.filter fun item => owner item == id).map display

/-- The entries of a report are a partition of what there is to show of a tick: the running
programs, a world and the rules of the tick. -/
structure Partitions (report : Report) (tick : Nat) (running : List (ProgramId × Option String))
    (world : World) (rules : List (Rule × Nat)) : Prop where
  tick : report.tick = tick
  /-- There is an entry for everyone who runs or owns something, and for nobody else. -/
  listed : ∀ id, id ∈ report.toList.map Prod.fst ↔
    id ∈ running.map Prod.fst ∨ (∃ entry ∈ world.errors, entry.source = id) ∨
      (∃ entry ∈ rules, entry.1.source = id) ∨ ∃ entry ∈ world.logs, entry.source = id
  ascending : (report.toList.map fun entry => entry.1.text).Pairwise (· < ·)
  errors : report.Shares ProgramReport.errors world.errors ErrorEntry.source id
  /-- Of a rule, its identity, its kind and how often it has fired are shown. -/
  rules : report.Shares ProgramReport.rules rules (fun entry => entry.1.source)
    fun entry => { rule := entry.1.id, kind := entry.1.kind, fired := entry.2 }
  logs : report.Shares ProgramReport.logs world.logs LogEntry.source id
  /-- An entry shows where a debugger listens if its program runs with one. -/
  debugged : ∀ id entry, (id, entry) ∈ report.toList →
    ∀ url, entry.debugUrl = some url ↔ (id, some url) ∈ running
  /-- The routes are these entries, in order. -/
  routes : report.routes.map Prod.snd = report.toList.filter fun entry =>
    running.any fun run => run.1 == entry.1 && run.2.isSome
  routed : ∀ url id entry, (url, id, entry) ∈ report.routes → (id, some url) ∈ running
  errorCount : report.errorCount = world.errors.length

/-! ## Sharing out -/

/-- If every entry shows what its program owns, and every owner has an entry, everything is
shared out. -/
theorem Shares.of_entries {ι α : Type} {report : Report} {shown : ProgramReport → List α}
    {items : List ι} {owner : ι → ProgramId} {display : ι → α}
    (entries : ∀ id, shown (report.entry id) =
      (items.filter fun item => owner item == id).map display)
    (covered : ∀ item ∈ items, owner item ∈ report.programs.keys) :
    report.Shares shown items owner display where
  once := by
    have labelled (id : ProgramId) :
        ((items.filter fun item => owner item == id).map display).map (fun item => (id, item)) =
          (items.filter fun item => owner item == id).map
            fun item => (owner item, display item) := by
      rw [List.map_map]
      apply List.map_congr_left
      intro item member
      have owned : owner item = id := by simpa using (List.mem_filter.mp member).2
      rw [owned]
      rfl
    rw [flatMap_toList report fun id entry => (shown entry).map fun item => (id, item)]
    simp only [entries, labelled]
    rw [← List.map_flatMap]
    exact (perm_flatMap_owned owner Std.ExtTreeMap.nodup_keys covered).map _
  inOrder id entry member := by rw [← entry_of_mem_toList member, entries]

/-! ## Where debuggers listen -/

/-- If no program is listed twice, the last one of a name is the only one. -/
theorem find?_reverse_bind_eq_some_iff {running : List (ProgramId × Option String)}
    (distinct : (running.map Prod.fst).Nodup) (id : ProgramId) (url : String) :
    (running.reverse.find? fun run => run.1 == id).bind Prod.snd = some url ↔
      (id, some url) ∈ running := by
  rw [Option.bind_eq_some_iff]
  constructor
  · rintro ⟨⟨other, debugUrl⟩, found, rfl⟩
    obtain rfl : other = id := by simpa using List.find?_some found
    exact List.mem_reverse.mp (List.mem_of_find?_eq_some found)
  · intro member
    have some : (running.reverse.find? fun run => run.1 == id).isSome = true := by
      apply List.find?_isSome.mpr
      exact ⟨_, List.mem_reverse.mpr member, beq_self_eq_true id⟩
    obtain ⟨run, found⟩ := Option.isSome_iff_exists.mp some
    have sameId : run.1 = id := by simpa using List.find?_some found
    have listed : run ∈ running := List.mem_reverse.mp (List.mem_of_find?_eq_some found)
    obtain rfl := List.inj_on_of_nodup_map distinct listed member sameId
    exact ⟨_, found, rfl⟩

/-- The routes are the entries that show where a debugger listens. -/
theorem routes_map_snd (report : Report) :
    report.routes.map Prod.snd = report.toList.filter fun entry => entry.2.debugUrl.isSome := by
  unfold routes
  rw [List.map_filterMap, ← List.filterMap_eq_filter]
  apply List.filterMap_congr
  rintro ⟨id, entry⟩ _
  cases debugUrl : entry.debugUrl <;> simp [Option.guard, debugUrl]

theorem mem_routes_iff (report : Report) (url : String) (id : ProgramId)
    (entry : ProgramReport) :
    (url, id, entry) ∈ report.routes ↔
      (id, entry) ∈ report.toList ∧ entry.debugUrl = some url := by
  unfold routes
  rw [List.mem_filterMap]
  constructor
  · rintro ⟨⟨held, shownEntry⟩, member, shown⟩
    obtain ⟨here, debugUrl, same⟩ := Option.map_eq_some_iff.mp shown
    simp only [Prod.mk.injEq] at same
    obtain ⟨rfl, rfl, rfl⟩ := same
    exact ⟨member, debugUrl⟩
  · rintro ⟨member, debugUrl⟩
    exact ⟨(id, entry), member, by simp [debugUrl]⟩

/-! ## The report of a tick -/

section Collect

variable (tick : Nat) (running : List (ProgramId × Option String)) (world : World)
  (rules : List (Rule × Nat))

/-- A program has an entry if it runs, or if one of the three lists has something of it. -/
theorem mem_keys_collect_iff (id : ProgramId) :
    id ∈ (collect tick running world rules).programs.keys ↔
      id ∈ running.map Prod.fst ∨ (∃ entry ∈ world.errors, entry.source = id) ∨
        (∃ entry ∈ rules, entry.1.source = id) ∨ ∃ entry ∈ world.logs, entry.source = id := by
  have absent := program?_collect_eq_none_iff tick running world rules id
  rw [Std.ExtTreeMap.mem_keys, Std.ExtTreeMap.mem_iff_isSome_getElem?, Option.isSome_iff_ne_none]
  change (collect tick running world rules).program? id ≠ none ↔ _
  rw [ne_eq, absent, World.logsOf, recordsOf, World.errorsOf, List.map_eq_nil_iff,
    List.filter_eq_nil_iff, List.filter_eq_nil_iff, List.filter_eq_nil_iff]
  simp only [beq_iff_eq, not_and_or, not_forall, not_not, exists_prop]
  grind

variable {tick running world rules} {id : ProgramId} {entry : ProgramReport}
  (distinct : (running.map Prod.fst).Nodup)
  (member : (id, entry) ∈ (collect tick running world rules).toList)
include distinct member

/-- An entry shows where a debugger listens if its program runs with one. -/
theorem debugUrl_eq_some_iff (url : String) :
    entry.debugUrl = some url ↔ (id, some url) ∈ running := by
  rw [← entry_of_mem_toList member, entry_collect]
  exact find?_reverse_bind_eq_some_iff distinct id url

theorem debugUrl_isSome :
    entry.debugUrl.isSome = running.any fun run => run.1 == id && run.2.isSome := by
  rw [Bool.eq_iff_iff, Option.isSome_iff_exists, List.any_eq_true]
  simp only [debugUrl_eq_some_iff distinct member]
  constructor
  · rintro ⟨url, runs⟩
    exact ⟨_, runs, by simp⟩
  · rintro ⟨⟨other, debugUrl⟩, runs, same⟩
    obtain ⟨sameId, some⟩ := Bool.and_eq_true_iff.mp same
    obtain ⟨url, rfl⟩ := Option.isSome_iff_exists.mp some
    obtain rfl : other = id := by simpa using sameId
    exact ⟨url, runs⟩

end Collect

/-- The report of a tick shows everything once, by the entry of its owner. -/
theorem collect_partitions (tick : Nat) {running : List (ProgramId × Option String)}
    (distinct : (running.map Prod.fst).Nodup) (world : World) (rules : List (Rule × Nat)) :
    (collect tick running world rules).Partitions tick running world rules := by
  let report := collect tick running world rules
  have keys : report.toList.map Prod.fst = report.programs.keys :=
    Std.ExtTreeMap.map_fst_toList_eq_keys
  have listed (id : ProgramId) := mem_keys_collect_iff tick running world rules id
  exact
    { tick := tick_collect tick running world rules
      listed := fun id => by rw [keys, listed]
      ascending := by
        apply List.pairwise_map.mpr
        exact (Std.ExtTreeMap.ordered_keys_toList (t := report.programs)).imp
          compare_lt_iff_lt.mp
      errors := by
        refine .of_entries (fun id => ?_) fun entry member => ?_
        · rw [entry_collect, List.map_id]
          rfl
        · exact (listed _).mpr (.inr (.inl ⟨entry, member, rfl⟩))
      rules := by
        refine .of_entries (fun id => ?_) fun entry member => ?_
        · rw [entry_collect]
          rfl
        · exact (listed _).mpr (.inr (.inr (.inl ⟨entry, member, rfl⟩)))
      logs := by
        refine .of_entries (fun id => ?_) fun entry member => ?_
        · rw [entry_collect, List.map_id]
          rfl
        · exact (listed _).mpr (.inr (.inr (.inr ⟨entry, member, rfl⟩)))
      debugged := fun _ _ member => debugUrl_eq_some_iff distinct member
      routes := by
        rw [routes_map_snd]
        exact List.filter_congr fun _ member => debugUrl_isSome distinct member
      routed := by
        intro url id entry member
        obtain ⟨held, debugUrl⟩ := (mem_routes_iff _ url id entry).mp member
        exact (debugUrl_eq_some_iff distinct held url).mp debugUrl
      errorCount := errorCount_collect tick running world rules }

/-- Two programs run, one of them with a debugger. Of these only the other one has something
to show, and so has the engine, and a program that does not run. -/
theorem collect_partitions_of_guests :
    let one : ProgramId := ⟨"1"⟩
    let two : ProgramId := ⟨"2"⟩
    let guest : ProgramId := ⟨"guest"⟩
    let running := [(two, some "http://paper-2.local/debug"), (one, none)]
    let rule (source : ProgramId) (index : Nat) (body : RuleBody) : Rule :=
      { id := .given index, body, source, isDynamic := false }
    let pattern : Claim := { name := "@ is cool", args := [.var "?x"] }
    let error (source : ProgramId) (message : String) : ErrorEntry :=
      { source, isDynamic := true, message, site := none }
    let world : World :=
      { errors := [error one "first", error .core "tick did not settle", error one "second"]
        logs := [{ source := guest, isDynamic := true, document := .int 1 }] }
    let rules :=
      [(rule guest 0 (.capture pattern fun _ _ => .idle), 4),
        (rule one 1 (.each [pattern] fun _ _ => .idle), 0),
        (rule one 2 (.grouped [pattern] fun _ _ => .idle), 3)]
    let report := collect 7 running world rules
    (running.map Prod.fst).Nodup ∧ report.Partitions 7 running world rules ∧
      (report.toList.map fun entry => (entry.1.text, entry.2.errors.map ErrorEntry.message,
        entry.2.rules, entry.2.logs.length)) =
        [("1", ["first", "second"], [⟨.given 1, .each, 0⟩, ⟨.given 2, .grouped, 3⟩], 0),
          ("2", [], [], 0), ("core", ["tick did not settle"], [], 0),
          ("guest", [], [⟨.given 0, .capture, 4⟩], 1)] ∧
      report.routes.map (fun route => (route.1, route.2.1.text)) =
        [("http://paper-2.local/debug", "2")] := by
  intro one two guest running rule pattern error world rules report
  have distinct : (running.map Prod.fst).Nodup := by decide
  refine ⟨distinct, collect_partitions 7 distinct world rules, ?_, ?_⟩
  · decide +kernel
  · decide +kernel

end Report

end Blackboard
