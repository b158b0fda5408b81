import Blackboard.Proofs.Query.Alignment
import Blackboard.Proofs.Query.Join

/-!
# What a query misses, and what it records

A pattern of a conjunction fails under a match of the patterns before it if no
stored tuple fits. `Store.failures` lists the failing patterns from the first
pattern to the last, and for each of them match by match. These are the misses of
an answer (`Indexed.answer_misses`), though the join gives up as soon as no match
is left. A query records what they capture, in order, and changes nothing else
(`Database.query_records_failures`).
-/

namespace Blackboard

namespace Store

/-! ## Failing patterns -/

/-- No fact of the pattern's name fits the pattern under a match. -/
def Unmatched (facts : String → List Tuple) (pattern : Claim) (context : Match) : Prop :=
  ∀ tuple ∈ facts pattern.name,
    ¬ (tuple.length = pattern.args.length ∧ context.Fits (pattern.args.zip tuple))

theorem fit?_eq_none_iff (pattern : Claim) (context : Match) (tuple : Tuple) :
    pattern.fit? context tuple = none ↔
      ¬ (tuple.length = pattern.args.length ∧ context.Fits (pattern.args.zip tuple)) := by
  rw [← Match.exists_fit?_iff, Option.eq_none_iff_forall_ne_some, ← exists_and_left, not_exists]
  simp only [ne_eq, pattern.fit?_eq_some_iff]

theorem unmatched_iff (facts : String → List Tuple) (pattern : Claim) (context : Match) :
    Unmatched facts pattern context ↔
      (facts pattern.name).all (fun tuple => (pattern.fit? context tuple).isNone) = true := by
  simp only [Unmatched, List.all_eq_true, Option.isNone_iff_eq_none, fit?_eq_none_iff]

instance (facts : String → List Tuple) (pattern : Claim) (context : Match) :
    Decidable (Unmatched facts pattern context) :=
  decidable_of_iff _ (unmatched_iff facts pattern context).symm

/-- The patterns of a conjunction that find nothing, from the first to the last, each
with the matches of the patterns before it under which it fails, in order. -/
def failures (facts : String → List Tuple) (patterns : List Claim) : List (Claim × Match) :=
  patterns.zipIdx.flatMap fun (pattern, position) =>
    (((choices facts (patterns.take position) ∅).map Prod.snd).filter fun context =>
      decide (Unmatched facts pattern context)).map fun context => (pattern, context)

/-! ## Misses -/

/-- The facts of a store, by name. -/
def facts (store : Store) (name : String) : List Tuple := (store.tuples name).toList

/-- The index hides no tuple that fits. -/
theorem Indexed.extensions_isEmpty {store : Store} (indexed : store.Indexed) (pattern : Claim)
    (context : Match) :
    (store.extensions pattern context).isEmpty =
      decide (Unmatched store.facts pattern context) := by
  rw [Bool.eq_iff_iff, List.isEmpty_iff, indexed.extensions_eq, List.filterMap_eq_nil_iff,
    decide_eq_true_iff, unmatched_iff, List.all_eq_true]
  simp only [Option.isNone_iff_eq_none, facts]

theorem Indexed.join_misses {store : Store} (indexed : store.Indexed) (pattern : Claim)
    (contexts : List Match) :
    (store.join pattern contexts).misses =
      (contexts.filter fun context => decide (Unmatched store.facts pattern context)).map
        fun context => (pattern, context) := by
  simp [join, List.filter_map, Function.comp_def, indexed.extensions_isEmpty]

/-- Where no match is left, no pattern misses. -/
theorem joinAll_nil_misses (store : Store) (patterns : List Claim) :
    (store.joinAll patterns []).misses = [] := by
  cases patterns <;> rfl

theorem joinAll_cons_found (store : Store) (pattern : Claim) (patterns : List Claim)
    (contexts : List Match) :
    (store.joinAll (pattern :: patterns) contexts).found =
      (store.joinAll patterns (store.join pattern contexts).found).found := by
  rw [joinAll]
  cases found : (store.join pattern contexts).found with
  | nil => simp [found, joinAll_found]
  | cons first rest => rfl

theorem joinAll_cons_misses (store : Store) (pattern : Claim) (patterns : List Claim)
    (contexts : List Match) :
    (store.joinAll (pattern :: patterns) contexts).misses =
      (store.join pattern contexts).misses ++
        (store.joinAll patterns (store.join pattern contexts).found).misses := by
  rw [joinAll]
  cases found : (store.join pattern contexts).found with
  | nil => simp [joinAll_nil_misses]
  | cons first rest => rfl

/-- The misses of a join, pattern by pattern: each pattern is tried under the
matches that the patterns before it leave. -/
theorem Indexed.joinAll_misses {store : Store} (indexed : store.Indexed) (patterns : List Claim)
    (contexts : List Match) :
    (store.joinAll patterns contexts).misses =
      patterns.zipIdx.flatMap fun (pattern, position) =>
        ((store.joinAll (patterns.take position) contexts).found.filter fun context =>
            decide (Unmatched store.facts pattern context)).map
          fun context => (pattern, context) := by
  induction patterns generalizing contexts with
  | nil => rfl
  | cons pattern patterns ih =>
      rw [joinAll_cons_misses, indexed.join_misses, ih, List.zipIdx_cons', List.flatMap_cons,
        List.flatMap_map]
      congr 1
      apply congrArg (List.flatMap · _)
      funext ⟨later, position⟩
      simp only [Prod.map_apply, id_eq, List.take_succ_cons, joinAll_cons_found]

/-- The misses of an answer are the failing patterns. -/
theorem Indexed.answer_misses {store : Store} (indexed : store.Indexed) (patterns : List Claim) :
    (store.answer patterns).misses = failures store.facts patterns := by
  have contexts : ∀ earlier, ((choices store.facts earlier ∅).map Prod.snd) =
      (store.joinAll earlier [∅]).found := fun earlier => (indexed.answer_found earlier).symm
  unfold failures
  simp only [contexts]
  exact indexed.joinAll_misses patterns [∅]

end Store

/-! ## What is recorded -/

namespace Captures

/-- What a failing pattern captures under a name. -/
def captureOf? (captures : Captures) (name : String) (failure : Claim × Match) : Option Match :=
  if failure.1.name = name then captures.capture? failure.1 failure.2 else none

theorem under_record (captures : Captures) (name other : String) (captured : Match) :
    ((captures.record name captured).under other).toList =
      (captures.under other).toList ++ if name = other then [captured] else [] := by
  unfold record under
  simp only [Std.ExtTreeMap.getElem?_alter, Std.LawfulEqCmp.compare_eq_iff_eq]
  by_cases same : name = other
  · subst other
    simp
  · simp [same]

theorem templates_miss (captures : Captures) (pattern : Claim) (context : Match) :
    (captures.miss pattern context).templates = captures.templates := by
  unfold miss
  cases captures.capture? pattern context <;> rfl

theorem under_miss (captures : Captures) (pattern : Claim) (context : Match) (name : String) :
    ((captures.miss pattern context).under name).toList =
      (captures.under name).toList ++ (captures.captureOf? name (pattern, context)).toList := by
  unfold miss captureOf?
  cases captured : captures.capture? pattern context with
  | none => simp
  | some m =>
      rw [under_record]
      by_cases same : pattern.name = name <;> simp [same]

/-- Recording leaves the templates alone, and with them what is captured. -/
theorem captureOf?_congr {first second : Captures} (same : first.templates = second.templates) :
    first.captureOf? = second.captureOf? := by
  unfold captureOf? capture? template?
  rw [same]

theorem templates_missAll (captures : Captures) (misses : List (Claim × Match)) :
    (captures.missAll misses).templates = captures.templates := by
  unfold missAll
  induction misses generalizing captures with
  | nil => rfl
  | cons first rest ih =>
      rw [List.foldl_cons, ih]
      exact captures.templates_miss first.1 first.2

/-- Misses are recorded in order, each under its name. -/
theorem under_missAll (captures : Captures) (misses : List (Claim × Match)) (name : String) :
    ((captures.missAll misses).under name).toList =
      (captures.under name).toList ++ misses.filterMap (captures.captureOf? name) := by
  unfold missAll
  induction misses generalizing captures with
  | nil => simp
  | cons first rest ih =>
      have sameTemplates := captures.templates_miss first.1 first.2
      rw [List.foldl_cons, ih, captureOf?_congr sameTemplates, under_miss, List.append_assoc]
      congr 1
      cases captured : captures.captureOf? name first <;> simp [captured]

end Captures

namespace Database

theorem store_query (db : Database) (patterns : List Claim) :
    (db.query patterns).2.store = db.store := rfl

theorem templates_query (db : Database) (patterns : List Claim) :
    (db.query patterns).2.captures.templates = db.captures.templates :=
  db.captures.templates_missAll _

theorem under_query (db : Database) (patterns : List Claim) (name : String) :
    ((db.query patterns).2.captures.under name).toList =
      (db.captures.under name).toList ++
        (db.store.answer patterns).misses.filterMap (db.captures.captureOf? name) :=
  db.captures.under_missAll _ name

/-- A query leaves facts and templates alone. To the captures of a name it appends
what its failing patterns of that name capture, in order: each of them is laid
alongside the template of the name, if there is one, and what is captured is what
`Aligned` says. -/
theorem query_records_failures (claims : List Claim) (captures : Captures)
    (patterns : List Claim) :
    let db : Database := { store := .ofClaims claims, captures }
    let after := (db.query patterns).2
    after.store = db.store ∧
      after.captures.templates = captures.templates ∧
      (∀ name, (after.captures.under name).toList =
        (captures.under name).toList ++
          (Store.failures (Store.factsOf claims) patterns).filterMap fun (pattern, context) =>
            if pattern.name = name then
              (captures.template? pattern.name).bind fun template =>
                Captures.align template pattern context
            else
              none) ∧
      ∀ template pattern context captured,
        Captures.align template pattern context = some captured ↔
          Captures.Aligned template pattern context captured := by
  intro db after
  refine ⟨db.store_query patterns, db.templates_query patterns, ?_, ?_⟩
  · intro name
    have indexed : db.store.Indexed := Store.indexed_ofClaims claims
    have sameFacts : db.store.facts = Store.factsOf claims :=
      funext fun name => Store.tuples_ofClaims claims name
    rw [← sameFacts, ← indexed.answer_misses]
    exact db.under_query patterns name
  · exact Captures.align_eq_some_iff

end Database

end Blackboard
