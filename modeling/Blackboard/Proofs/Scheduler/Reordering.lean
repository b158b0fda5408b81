import Blackboard.Proofs.Scheduler.Templates
import Blackboard.Proofs.Settling.Reordering

/-!
# Rule order does not matter

The order in which the rules of a tick stand decides in which order they are called and
in which order facts and captures are stored, and nothing else, as long as no capture rule
fails (`Settling.run_ignores_rule_order`). Where no two capture rules share a claim name,
the templates of the tick do not depend on it either
(`Database.registerTemplates_perm`).
-/

namespace Blackboard

namespace Rule

/-- The rules do not capture under the same name. -/
def Apart (rule other : Rule) : Prop :=
  ∀ template ∈ rule.template?, ∀ rival ∈ other.template?, template.name ≠ rival.name

instance : Std.Symm Apart where
  symm _ _ apart template own rival theirs := (apart rival theirs template own).symm

end Rule

namespace Database

/-! ## Templates -/

theorem register_getD (db : Database) (template : Claim) :
    (db.register template).toOption.getD db =
      if template.hasSlot = true then
        { db with captures :=
          { db.captures with templates := db.captures.templates.insert template.name template } }
      else
        db := by
  unfold register Captures.register
  split <;> rfl

/-- Templates of different names may be registered in either order. -/
theorem register_comm (db : Database) {template rival : Claim}
    (apart : template.name ≠ rival.name) :
    let once := (db.register template).toOption.getD db
    let other := (db.register rival).toOption.getD db
    (once.register rival).toOption.getD once = (other.register template).toOption.getD other := by
  have commute : (db.captures.templates.insert template.name template).insert rival.name rival =
      (db.captures.templates.insert rival.name rival).insert template.name template := by
    apply Std.ExtTreeMap.ext_getElem?
    intro name
    simp only [Std.ExtTreeMap.getElem?_insert, Std.LawfulEqCmp.compare_eq_iff_eq]
    by_cases first : template.name = name
    · have second : rival.name ≠ name := fun same => apart (first.trans same.symm)
      simp only [if_neg second, if_pos first]
    · simp only [if_neg first]
  dsimp only
  by_cases slot : template.hasSlot = true <;> by_cases slot' : rival.hasSlot = true <;>
    simp [register_getD, slot, slot', commute]

/-- The order of capture rules that do not share a name leaves no mark on the templates. -/
theorem registerTemplates_perm {rules others : List Rule} (perm : rules.Perm others)
    (apart : rules.Pairwise Rule.Apart) (db : Database) :
    db.registerTemplates rules = db.registerTemplates others := by
  unfold registerTemplates
  apply perm.foldl_eq'
  intro rule member other otherMember db
  by_cases same : rule = other
  · rw [same]
  · have apart := apart.forall member otherMember same
    cases body : rule.body with
    | each patterns callback => rfl
    | grouped patterns callback => rfl
    | capture template callback =>
        cases otherBody : other.body with
        | each patterns callback => rfl
        | grouped patterns callback => rfl
        | capture rival callback' =>
            apply register_comm
            apply apart
            · exact Rule.template?_eq_some_iff.mpr ⟨callback, body⟩
            · exact Rule.template?_eq_some_iff.mpr ⟨callback', otherBody⟩

end Database

namespace Settling

/-- The order of rules does not matter for what they derive. If no capture rule fails,
and what capture rules do is a function of the match, then rules in another order settle
in as many iterations, every one of them fires as often and on the same matches, and the
same facts and captures are left behind, in another order. -/
theorem run_ignores_rule_order (tick : Nat) (claims : List Claim) (captures : Captures)
    (rules : List Rule) (order : List Nat) (shuffled : order.Perm (List.range rules.length))
    (apart : rules.Pairwise Rule.Apart) (steady : ∀ rule ∈ rules, rule.Steady tick) :
    let db : Database := { store := .ofClaims claims, captures }
    let others := arranged order rules
    others.Perm rules ∧ db.registerTemplates rules = db.registerTemplates others ∧
      ((start db rules).Unfailing tick → ∀ ceiling fuel,
        Option.Rel (SameOutcome tick order (start db rules) (start db others))
          ((start db rules).run tick ceiling fuel) ((start db others).run tick ceiling fuel)) := by
  intro db others
  have perm : others.Perm rules := arranged_perm shuffled
  have indexed : db.store.Indexed := Store.indexed_ofClaims claims
  refine ⟨perm, db.registerTemplates_perm perm.symm apart, ?_⟩
  intro unfailing ceiling fuel
  exact run_arranged indexed shuffled steady unfailing ceiling fuel

theorem exists_of_rel_some {α β : Type} {r : α → β → Prop} {a : α} {finish : Option β}
    (related : Option.Rel r (some a) finish) : ∃ b, finish = some b ∧ r a b := by
  cases related with
  | some holds => exact ⟨_, rfl, holds⟩

/-- Two rules whose misses are captured in one order or in the other. -/
theorem run_ignores_rule_order_of_parents :
    let pattern : Claim := { name := "@ has @ kids", args := [.var "p", .var "?n"] }
    let given (n : Nat) (body : RuleBody) : Rule :=
      { id := .given n, body, source := .core, isDynamic := false }
    let waiting (n : Nat) (name : String) : Rule :=
      given n (.each [{ name := "@ has @ kids", args := [.val (.text name), .var "n"] }]
        fun _ _ => .idle)
    let rules : List Rule :=
      [ waiting 0 "Homer", waiting 1 "Marge",
        given 2 (.capture pattern fun _ m =>
          ⟨(m.get? "p").toList.map fun p => .assert (.fact "@ has @ kids" [p, .int 3]), .done⟩) ]
    let captures : Captures := { templates := Std.ExtTreeMap.ofList [("@ has @ kids", pattern)] }
    let db : Database := { store := .ofClaims [], captures }
    let opening := start db rules
    let other := start db (arranged [2, 1, 0] rules)
    let firstIs (s : Settling) (name : String) : Bool :=
      ((s.captured "@ has @ kids").head?.bind fun m => m.get? "p").any fun p => p == .text name
    rules.Pairwise Rule.Apart ∧ (∀ rule ∈ rules, rule.Steady 1) ∧ opening.Unfailing 1 ∧
      firstIs (opening.stage 1 2) "Homer" = true ∧ firstIs (other.stage 1 2) "Marge" = true ∧
      ∃ last last', opening.run 1 none 2 = some last ∧ other.run 1 none 2 = some last' ∧
        last.settled = true ∧ SameOutcome 1 [2, 1, 0] opening other last last' := by
  intro pattern given waiting rules captures db opening other firstIs
  have apart : rules.Pairwise Rule.Apart := by
    simp [rules, given, waiting, Rule.Apart, Rule.template?]
  have steady : ∀ rule ∈ rules, rule.Steady 1 := by
    intro rule member
    simp only [rules, List.mem_cons, List.not_mem_nil, or_false] at member
    rcases member with rfl | rfl | rfl
    · nofun
    · nofun
    · rintro _ _ ⟨⟩ turn m
      rfl
  have settled : (opening.stage 1 2).settled = true := by decide +kernel
  have unfailing : opening.Unfailing 1 := by
    intro ceiling fuel last finished
    obtain ⟨k, inside, rfl⟩ := exists_stage_of_settled settled finished
    rcases Nat.le_one_iff_eq_zero_or_eq_one.mp inside with rfl | rfl
    · decide +kernel
    · decide +kernel
  refine ⟨apart, steady, unfailing, by decide +kernel, by decide +kernel, ?_⟩
  have ended : (opening.run 1 none 2).any Settling.settled = true := by decide +kernel
  obtain ⟨last, run, lastSettled⟩ := (Option.any_eq_true _ _).mp ended
  have same := (run_ignores_rule_order 1 [] captures rules [2, 1, 0] (by decide) apart
    steady).2.2 unfailing none 2
  rw [run] at same
  obtain ⟨last', run', outcome⟩ := exists_of_rel_some same
  exact ⟨last, last', run, run', lastSettled, outcome⟩

end Settling

end Blackboard
