import Blackboard.Proofs.Scheduler.Admission
import Blackboard.Proofs.Scheduler.Delay
import Blackboard.Proofs.Settling.Serving

/-!
# Templates that share a name

The templates of a tick are kept by name, and the last rule to register one counts
(`Database.template?_registerTemplates`). A capture rule is handed all captures of
its name, so it hears of the queries that line up with that template
(`Scheduler.Reachable.capture_rules_heed_last_template`). This is its own one if no
later rule captures under the same name, and otherwise need not be
(`Scheduler.deaf_to_own_template`).
-/

namespace Blackboard

namespace Rule

/-- The template of a capture rule. -/
def template? (rule : Rule) : Option Claim :=
  match rule.body with
  | .capture pattern _ => some pattern
  | _ => none

/-- The last template of a name. -/
def lastTemplate? (rules : List Rule) (name : String) : Option Claim :=
  (rules.filterMap template?).reverse.find? fun template => template.name == name

theorem lastTemplate?_cons (rule : Rule) (rules : List Rule) (name : String) :
    lastTemplate? (rule :: rules) name =
      (lastTemplate? rules name).or
        (rule.template?.filter fun template => template.name == name) := by
  unfold lastTemplate?
  cases own : rule.template? with
  | none => simp [own]
  | some template =>
      by_cases same : template.name = name <;>
        simp [own, same, Option.filter, List.find?_append]

theorem exists_lastTemplate? {rules : List Rule} {rule : Rule} (member : rule ∈ rules)
    {template : Claim} (own : rule.template? = some template) :
    ∃ last, lastTemplate? rules template.name = some last ∧ last.name = template.name := by
  have listed : template ∈ (rules.filterMap template?).reverse :=
    List.mem_reverse.mpr (List.mem_filterMap.mpr ⟨rule, member, own⟩)
  have some : (lastTemplate? rules template.name).isSome = true := by
    apply List.find?_isSome.mpr
    exact ⟨template, listed, beq_self_eq_true template.name⟩
  obtain ⟨last, found⟩ := Option.isSome_iff_exists.mp some
  exact ⟨last, found, by simpa using List.find?_some found⟩

theorem template?_eq_some_iff {rule : Rule} {template : Claim} :
    rule.template? = some template ↔ ∃ callback, rule.body = .capture template callback := by
  unfold template?
  cases rule.body <;> simp

theorem hasSlot_of_template? {rule : Rule} (admitted : rule.body.refusal? = none)
    {template : Claim} (own : rule.template? = some template) : template.hasSlot = true := by
  obtain ⟨callback, body⟩ := template?_eq_some_iff.mp own
  rw [body] at admitted
  simpa [RuleBody.refusal?] using admitted

end Rule

namespace Database

theorem registerTemplates_cons (db : Database) (rule : Rule) (rules : List Rule) :
    db.registerTemplates (rule :: rules) =
      (match rule.template? with
        | some template => (db.register template).toOption.getD db
        | none => db).registerTemplates rules := by
  unfold registerTemplates Rule.template?
  rw [List.foldl_cons]
  cases rule.body <;> rfl

/-- A template that was not refused takes the place of an earlier one of its name. -/
theorem template?_register {db : Database} {template : Claim} (slot : template.hasSlot = true)
    (name : String) :
    ((db.register template).toOption.getD db).captures.template? name =
      if template.name = name then some template else db.captures.template? name := by
  simp [register, Captures.register, slot, Captures.template?, Except.map, Except.toOption,
    Std.ExtTreeMap.getElem?_insert, Std.LawfulEqCmp.compare_eq_iff_eq]

/-- The last template of a name counts. -/
theorem template?_registerTemplates {db : Database} {rules : List Rule}
    (admitted : ∀ rule ∈ rules, rule.body.refusal? = none) (name : String) :
    (db.registerTemplates rules).captures.template? name =
      (Rule.lastTemplate? rules name).or (db.captures.template? name) := by
  induction rules generalizing db with
  | nil => rfl
  | cons rule rules ih =>
      obtain ⟨here, further⟩ := List.forall_mem_cons.mp admitted
      rw [registerTemplates_cons, ih further, Rule.lastTemplate?_cons, Option.or_assoc]
      congr 1
      cases own : rule.template? with
      | none => rfl
      | some template =>
          apply (template?_register (Rule.hasSlot_of_template? here own) name).trans
          by_cases same : template.name = name <;> simp [same, Option.filter]

/-- Registering templates captures nothing. -/
theorem recorded_registerTemplates (db : Database) (rules : List Rule) :
    (db.registerTemplates rules).captures.recorded = db.captures.recorded := by
  induction rules generalizing db with
  | nil => rfl
  | cons rule rules ih =>
      rw [registerTemplates_cons, ih]
      cases rule.template? with
      | none => rfl
      | some template =>
          by_cases slot : template.hasSlot <;>
            simp [register, Captures.register, slot, Except.map, Except.toOption]

end Database

namespace Settling

/-- What is recorded is what failing patterns capture that line up with the template. -/
theorem mem_recorded_iff {s : Settling} {name : String} {m : Match} :
    m ∈ s.recorded name ↔
      ∃ pattern context, (pattern, context) ∈ s.failures ∧ pattern.name = name ∧
        ∃ template, s.database.captures.template? name = some template ∧
          Captures.Aligned template pattern context m := by
  unfold recorded
  rw [List.mem_filterMap]
  constructor
  · rintro ⟨⟨pattern, context⟩, failing, captured⟩
    unfold Captures.captureOf? at captured
    split at captured
    · next named =>
        obtain ⟨template, registered, aligned⟩ := Option.bind_eq_some_iff.mp captured
        exact ⟨pattern, context, failing, named, template, named ▸ registered,
          Captures.align_eq_some_iff template pattern context m |>.mp aligned⟩
    · cases captured
  · rintro ⟨pattern, context, failing, rfl, template, registered, aligned⟩
    refine ⟨(pattern, context), failing, (if_pos rfl).trans ?_⟩
    apply Option.bind_eq_some_iff.mpr
    exact ⟨template, registered,
      Captures.align_eq_some_iff template pattern context m |>.mpr aligned⟩

/-- In the first iterations, a query has failed on a pattern that lines up with a
template, which captures a match. -/
def Missed (tick : Nat) (s : Settling) (iterations : Nat) (template : Claim) (m : Match) : Prop :=
  ∃ k < iterations, ∃ pattern context, (pattern, context) ∈ (s.stage tick k).failures ∧
    pattern.name = template.name ∧ Captures.Aligned template pattern context m

/-- The capture rule at a position hears of the queries of the first iterations that
fail on patterns that line up with a template: it is called if and only if there is
one, and handed nothing but what they capture. -/
structure Heeds (tick : Nat) (s : Settling) (i : Nat) (template : Claim) (iterations : Nat) :
    Prop where
  called_iff : s.deliveredBy tick i iterations ≠ [] ↔ ∃ m, s.Missed tick iterations template m
  delivered : ∀ m ∈ s.deliveredBy tick i iterations, s.Missed tick iterations template m

section Heeds

variable {s : Settling} {rule : Rule} {i : Nat} {pattern template : Claim}
  {callback : Context → Match → Reaction}

/-- What has been captured so far is what queries have missed so far. -/
theorem Opens.mem_captured_iff (opens : s.Opens rule i pattern callback)
    (registered : s.database.captures.template? pattern.name = some template)
    (sameName : template.name = pattern.name) (tick iterations : Nat) (m : Match) :
    m ∈ (s.stage tick iterations).captured pattern.name ↔ s.Missed tick iterations template m := by
  rw [captured_stage opens.indexed tick pattern.name iterations, opens.fresh, List.nil_append,
    List.mem_flatMap]
  have templates (k : Nat) :
      (s.stage tick k).database.captures.template? pattern.name = some template := by
    rw [← registered]
    unfold Captures.template?
    rw [stage_templates]
  constructor
  · rintro ⟨k, earlier, held⟩
    obtain ⟨failing, context, failed, named, template', registered', aligned⟩ :=
      mem_recorded_iff.mp held
    obtain rfl : template = template' := Option.some.inj ((templates k).symm.trans registered')
    exact ⟨k, List.mem_range.mp earlier, failing, context, failed, named.trans sameName.symm,
      aligned⟩
  · rintro ⟨k, earlier, failing, context, failed, named, aligned⟩
    refine ⟨k, List.mem_range.mpr earlier, ?_⟩
    apply mem_recorded_iff.mpr
    exact ⟨failing, context, failed, named.trans sameName, template, templates k, aligned⟩

theorem Opens.heeds (opens : s.Opens rule i pattern callback)
    (registered : s.database.captures.template? pattern.name = some template)
    (sameName : template.name = pattern.name) (tick iterations : Nat) :
    s.Heeds tick i template iterations where
  called_iff := by
    simp only [← opens.mem_captured_iff registered sameName tick iterations]
    rw [opens.deliveredBy_eq tick iterations, served, ne_eq, Rule.delivered_eq_nil_iff,
      List.eq_nil_iff_forall_not_mem, not_forall]
    simp only [not_not]
  delivered m handed := by
    rw [opens.deliveredBy_eq tick iterations] at handed
    apply (opens.mem_captured_iff registered sameName tick iterations m).mp
    exact (Rule.delivered_prefix 0 _).subset handed

end Heeds

end Settling

namespace Scheduler

/-- A tick starts with nothing captured. -/
theorem opening_opens {s : Scheduler} {board : Board} {i : Nat} {rule : Rule} {pattern : Claim}
    {callback : Context → Match → Reaction} (placed : board.world.rules[i]? = some rule)
    (body : rule.body = .capture pattern callback) (millis : Int64) (programs : List Program) :
    (s.opening board millis programs).Opens rule i pattern callback where
  indexed := by
    rw [store_opening]
    exact Store.indexed_empty.insertAll _
  placed := by
    change (board.world.rules.map Progress.ofRule)[i]? = _
    rw [List.getElem?_map, placed]
    rfl
  body := body
  fresh := by
    have recorded : (s.opening board millis programs).database.captures.recorded = ∅ := by
      apply (Database.recorded_registerTemplates _ _).trans
      rw [Database.captures_insertAll]
      rfl
    simp [Settling.captured, Captures.under, recorded]

/-- In every tick of a reachable scheduler, a capture rule hears of the queries that
line up with the template that was last registered for its name, whatever its own. -/
theorem Reachable.capture_rules_heed_last_template {s : Scheduler} (reachable : s.Reachable)
    (millis : Int64) (programs : List Program) :
    let tick := s.ticks + 1
    let rules := (s.synced programs).world.rules
    let opening := s.opening (s.synced programs) millis programs
    (∀ i rule pattern callback, rules[i]? = some rule → rule.body = .capture pattern callback →
      ∃ template, Rule.lastTemplate? rules pattern.name = some template ∧
        ∀ iterations, opening.Heeds tick i template iterations) ∧
      ∀ patience settling, opening.settle tick s.limit patience = some settling →
        settling = opening.stage tick settling.iterations ∧
          Settling.captureCalls settling.trace =
            (List.range settling.iterations).flatMap fun k =>
              (List.range rules.length).flatMap ((opening.stage tick k).callsAt tick) := by
  intro tick rules opening
  constructor
  · intro i rule pattern callback placed body
    have own : rule.template? = some pattern :=
      Rule.template?_eq_some_iff.mpr ⟨callback, body⟩
    obtain ⟨template, last, sameName⟩ :=
      Rule.exists_lastTemplate? (List.mem_of_getElem? placed) own
    refine ⟨template, last, ?_⟩
    intro iterations
    have registered : opening.database.captures.template? pattern.name = some template := by
      apply (Database.template?_registerTemplates (reachable.admitted_synced programs) _).trans
      rw [last]
      rfl
    exact (opening_opens placed body millis programs).heeds registered sameName tick iterations
  · intro patience settling settled
    have staged : settling = opening.stage tick settling.iterations :=
      Settling.eq_stage_of_run settled
    refine ⟨staged, ?_⟩
    conv_lhs => rw [staged]
    exact Settling.stage_captureCalls ..

/-- A template for the children of one person. -/
def homersKids : Claim :=
  { name := "@ has @ kids", args := [.val (.text "Homer"), .var "?n"] }

/-- A program two of whose rules capture under one name, the second with a template
for everyone, and whose third rule waits for something about another person. -/
def rivals : Program where
  id := ⟨"1"⟩
  codeHash := ⟨"v1"⟩
  registrar _ :=
    ⟨[ .register (.capture homersKids fun _ _ => .idle),
       .register (.capture { homersKids with args := [.var "p", .var "?n"] } fun _ _ => .idle),
       .register (.each [{ homersKids with args := [.val (.text "Marge"), .var "n"] }]
         fun _ _ => .idle) ], .done⟩

/-- The first rule is called with what the template of the second one captures. -/
theorem capture_rules_heed_last_template_of_rivals :
    let s : Scheduler := { settings := {}, baseFacts := fun _ _ => [] }
    let rules := (s.synced [rivals]).world.rules
    let opening := s.opening (s.synced [rivals]) 0 [rivals]
    s.Reachable ∧ (opening.settle 1 s.limit 1).isSome = true ∧
      opening.deliveredBy 1 0 1 ≠ [] ∧
      ∃ template, Rule.lastTemplate? rules "@ has @ kids" = some template ∧
        opening.Heeds 1 0 template 1 := by
  intro s rules opening
  have reachable : s.Reachable := .initial {} fun _ _ => []
  refine ⟨reachable, ?_, ?_, ?_⟩
  · decide +kernel
  · apply List.ne_nil_of_length_pos
    decide +kernel
  · obtain ⟨template, last, heeds⟩ :=
      (reachable.capture_rules_heed_last_template 0 [rivals]).1 0 _ homersKids _ rfl rfl
    exact ⟨template, last, heeds 1⟩

/-- No query lines up with the template of the first rule, and yet it is called. -/
theorem deaf_to_own_template :
    let s : Scheduler := { settings := {}, baseFacts := fun _ _ => [] }
    let opening := s.opening (s.synced [rivals]) 0 [rivals]
    s.Reachable ∧ (s.synced [rivals]).world.rules[0]?.bind Rule.template? = some homersKids ∧
      (opening.settle 1 s.limit 1).map Settling.iterations = some 1 ∧
      ¬ opening.Heeds 1 0 homersKids 1 := by
  intro s opening
  refine ⟨.initial {} fun _ _ => [], rfl, ?_, ?_⟩
  · decide +kernel
  · intro heeds
    have called : opening.deliveredBy 1 0 1 ≠ [] := by
      apply List.ne_nil_of_length_pos
      decide +kernel
    obtain ⟨m, k, first, pattern, context, failed, _, aligned⟩ := heeds.called_iff.mp called
    obtain rfl := Nat.lt_one_iff.mp first
    have unaligned : opening.failures.all
        (fun failure => (Captures.align homersKids failure.1 failure.2).isNone) = true := by
      decide +kernel
    have captured := Captures.align_eq_some_iff homersKids pattern context m |>.mpr aligned
    have none := List.all_eq_true.mp unaligned (pattern, context) failed
    rw [captured] at none
    cases none

end Scheduler

end Blackboard
