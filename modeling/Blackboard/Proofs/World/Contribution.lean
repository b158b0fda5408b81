import Blackboard.Program
import Blackboard.Settle

/-!
# Contributions and their owners

Worlds are appended entry by entry, so that a condition on owners and
persistence (`World.Every`) holds of a whole if it holds of its parts. What a
callback contributes is owned by the program of its rule and dynamic, what a
registrar contributes is owned by its program and static, whatever either asks
for and however it ends.
-/

namespace Blackboard

namespace World

theorem ext {first second : World} (claims : first.claims = second.claims)
    (rules : first.rules = second.rules) (errors : first.errors = second.errors)
    (logs : first.logs = second.logs) : first = second := by
  cases first
  cases second
  simp_all

@[simp]
theorem claims_append (first second : World) :
    (first ++ second).claims = first.claims ++ second.claims := rfl

@[simp]
theorem rules_append (first second : World) :
    (first ++ second).rules = first.rules ++ second.rules := rfl

@[simp]
theorem errors_append (first second : World) :
    (first ++ second).errors = first.errors ++ second.errors := rfl

@[simp]
theorem logs_append (first second : World) :
    (first ++ second).logs = first.logs ++ second.logs := rfl

theorem append_assoc (first second third : World) :
    first ++ second ++ third = first ++ (second ++ third) := by
  apply ext <;> exact List.append_assoc ..

@[simp]
theorem empty_append (world : World) : ∅ ++ world = world := rfl

@[simp]
theorem append_empty (world : World) : world ++ ∅ = world := by
  apply ext <;> exact List.append_nil _

@[simp]
theorem concat_nil : concat [] = ∅ := rfl

@[simp]
theorem concat_cons (world : World) (worlds : List World) :
    concat (world :: worlds) = world ++ concat worlds := rfl

theorem concat_append (first second : List World) :
    concat (first ++ second) = concat first ++ concat second := by
  apply ext <;> exact List.flatMap_append

/-! ## Filters -/

theorem filter_append (first second : World) (keep : ProgramId → Bool → Bool) :
    (first ++ second).filter keep = first.filter keep ++ second.filter keep := by
  apply ext <;> exact List.filter_append ..

theorem filter_filter (world : World) (first second : ProgramId → Bool → Bool) :
    (world.filter first).filter second =
      world.filter fun owner isDynamic => first owner isDynamic && second owner isDynamic := by
  apply ext <;> simp [filter, List.filter_filter, Bool.and_comm]

/-- Every entry has an owner and a persistence that satisfy a condition. -/
structure Every (world : World) (property : ProgramId → Bool → Prop) : Prop where
  claims : ∀ claim ∈ world.claims, property claim.source claim.isDynamic
  rules : ∀ rule ∈ world.rules, property rule.source rule.isDynamic
  errors : ∀ entry ∈ world.errors, property entry.source entry.isDynamic
  logs : ∀ entry ∈ world.logs, property entry.source entry.isDynamic

section Every

variable {property : ProgramId → Bool → Prop}

theorem every_empty : (∅ : World).Every property where
  claims := nofun
  rules := nofun
  errors := nofun
  logs := nofun

theorem every_ofError {entry : ErrorEntry} (holds : property entry.source entry.isDynamic) :
    (ofError entry).Every property where
  claims := nofun
  rules := nofun
  errors := by simpa [ofError] using holds
  logs := nofun

theorem Every.append {first second : World} (firstEvery : first.Every property)
    (secondEvery : second.Every property) : (first ++ second).Every property where
  claims := List.forall_mem_append.mpr ⟨firstEvery.claims, secondEvery.claims⟩
  rules := List.forall_mem_append.mpr ⟨firstEvery.rules, secondEvery.rules⟩
  errors := List.forall_mem_append.mpr ⟨firstEvery.errors, secondEvery.errors⟩
  logs := List.forall_mem_append.mpr ⟨firstEvery.logs, secondEvery.logs⟩

theorem every_concat {worlds : List World} (every : ∀ world ∈ worlds, world.Every property) :
    (concat worlds).Every property := by
  induction worlds with
  | nil => exact every_empty
  | cons world worlds ih =>
      obtain ⟨here, further⟩ := List.forall_mem_cons.mp every
      exact here.append (ih further)

theorem Every.mono {world : World} {weaker : ProgramId → Bool → Prop}
    (every : world.Every property)
    (implies : ∀ owner isDynamic, property owner isDynamic → weaker owner isDynamic) :
    world.Every weaker where
  claims claim member := implies _ _ (every.claims claim member)
  rules rule member := implies _ _ (every.rules rule member)
  errors entry member := implies _ _ (every.errors entry member)
  logs entry member := implies _ _ (every.logs entry member)

/-- What a filter leaves satisfies its condition, and whatever held of every entry before. -/
theorem Every.filter {world : World} (every : world.Every property)
    (keep : ProgramId → Bool → Bool) :
    (world.filter keep).Every fun owner isDynamic =>
      property owner isDynamic ∧ keep owner isDynamic = true where
  claims claim member :=
    ⟨every.claims claim (List.mem_filter.mp member).1, (List.mem_filter.mp member).2⟩
  rules rule member :=
    ⟨every.rules rule (List.mem_filter.mp member).1, (List.mem_filter.mp member).2⟩
  errors entry member :=
    ⟨every.errors entry (List.mem_filter.mp member).1, (List.mem_filter.mp member).2⟩
  logs entry member :=
    ⟨every.logs entry (List.mem_filter.mp member).1, (List.mem_filter.mp member).2⟩

/-- What a filter leaves satisfies its condition. -/
theorem filter_every (world : World) (keep : ProgramId → Bool → Bool) :
    (world.filter keep).Every fun owner isDynamic => keep owner isDynamic = true where
  claims _ member := (List.mem_filter.mp member).2
  rules _ member := (List.mem_filter.mp member).2
  errors _ member := (List.mem_filter.mp member).2
  logs _ member := (List.mem_filter.mp member).2

end Every

/-- A filter that lets everything pass. -/
@[simp]
theorem filter_true (world : World) : (world.filter fun _ _ => true) = world := by
  apply ext <;> simp [filter]

theorem filter_eq_self {world : World} {keep : ProgramId → Bool → Bool}
    (kept : world.Every fun owner isDynamic => keep owner isDynamic = true) :
    world.filter keep = world := by
  apply ext
  · exact List.filter_eq_self.mpr kept.claims
  · exact List.filter_eq_self.mpr kept.rules
  · exact List.filter_eq_self.mpr kept.errors
  · exact List.filter_eq_self.mpr kept.logs

theorem filter_eq_empty {world : World} {keep : ProgramId → Bool → Bool}
    (dropped : world.Every fun owner isDynamic => keep owner isDynamic = false) :
    world.filter keep = ∅ := by
  apply ext
  · exact List.filter_eq_nil_iff.mpr fun claim member => by simp [dropped.claims claim member]
  · exact List.filter_eq_nil_iff.mpr fun rule member => by simp [dropped.rules rule member]
  · exact List.filter_eq_nil_iff.mpr fun entry member => by simp [dropped.errors entry member]
  · exact List.filter_eq_nil_iff.mpr fun entry member => by simp [dropped.logs entry member]

theorem retainStatic_static (world : World) :
    world.retainStatic.Every fun _ isDynamic => isDynamic = false :=
  (world.filter_every _).mono fun _ _ kept => by simpa using kept

theorem retainStatic_append (first second : World) :
    (first ++ second).retainStatic = first.retainStatic ++ second.retainStatic :=
  filter_append first second _

theorem retainStatic_of_static {world : World}
    (static : world.Every fun _ isDynamic => isDynamic = false) : world.retainStatic = world :=
  filter_eq_self (static.mono fun _ _ isStatic => by simp [isStatic])

theorem retainStatic_of_dynamic {world : World}
    (dynamic : world.Every fun _ isDynamic => isDynamic = true) : world.retainStatic = ∅ :=
  filter_eq_empty (dynamic.mono fun _ _ isDynamic => by simp [isDynamic])

/-- A condition on owners may be tested before or after the dynamic entries are dropped. -/
theorem retainStatic_filter (world : World) (keep : ProgramId → Bool) :
    (world.filter fun owner _ => keep owner).retainStatic =
      world.retainStatic.filter fun owner _ => keep owner := by
  simp only [retainStatic, filter_filter, Bool.and_comm]

/-- A condition on owners keeps or drops a contribution that has one owner as a whole. -/
theorem filter_concat_map {ι : Type} (owner : ι → ProgramId) (contribution : ι → World)
    (keep : ProgramId → Bool) {parts : List ι}
    (owned : ∀ part ∈ parts, (contribution part).Every fun source _ => source = owner part) :
    (concat (parts.map contribution)).filter (fun source _ => keep source) =
      concat ((parts.filter fun part => keep (owner part)).map contribution) := by
  induction parts with
  | nil => rfl
  | cons part rest ih =>
      obtain ⟨here, further⟩ := List.forall_mem_cons.mp owned
      rw [List.map_cons, concat_cons, filter_append, ih further]
      by_cases kept : keep (owner part) = true
      · rw [filter_eq_self (here.mono fun source _ same => by rw [same, kept]),
          List.filter_cons, if_pos kept, List.map_cons, concat_cons]
      · rw [filter_eq_empty (here.mono fun source _ same => by rw [same]; simpa using kept),
          List.filter_cons, if_neg kept, empty_append]

/-! ## Failures -/

/-- The contribution of a failure, if there is one. -/
def ofFailure (entry : Failure → ErrorEntry) (failure : Option Failure) : World :=
  failure.elim ∅ fun failure => ofError (entry failure)

@[simp]
theorem ofFailure_none (entry : Failure → ErrorEntry) : ofFailure entry none = ∅ := rfl

theorem ofFailure_errors (entry : Failure → ErrorEntry) (failure : Option Failure) :
    (ofFailure entry failure).errors = failure.toList.map entry := by
  cases failure <;> rfl

theorem ofFailure_claims (entry : Failure → ErrorEntry) (failure : Option Failure) :
    (ofFailure entry failure).claims = [] := by
  cases failure <;> rfl

theorem every_ofFailure {property : ProgramId → Bool → Prop} {entry : Failure → ErrorEntry}
    (holds : ∀ failure, property (entry failure).source (entry failure).isDynamic)
    (failure : Option Failure) : (ofFailure entry failure).Every property := by
  cases failure with
  | none => exact every_empty
  | some failure => exact every_ofError (holds failure)

end World

/-! ## Who owns what a callback makes -/

namespace Context

/-- What actions contribute belongs to the program of the context and has its persistence. -/
theorem contribution_every (context : Context) (actions : List Action) :
    (context.contribution actions).Every fun owner isDynamic =>
      owner = context.source ∧ isDynamic = context.isDynamic where
  claims := by
    intro claim member
    obtain ⟨action, _, made⟩ := List.mem_filterMap.mp member
    cases action with
    | assert asserted =>
        obtain rfl := Option.some.inj made
        exact ⟨rfl, rfl⟩
    | register body => cases made
    | log document => cases made
    | report message => cases made
  rules := by
    intro rule member
    obtain ⟨⟨action, index⟩, _, made⟩ := List.mem_filterMap.mp member
    cases action with
    | register body =>
        simp only [rule?] at made
        split at made
        · obtain rfl := Option.some.inj made
          exact ⟨rfl, rfl⟩
        · cases made
    | assert asserted => cases made
    | log document => cases made
    | report message => cases made
  errors := by
    intro entry member
    obtain ⟨⟨action, index⟩, _, made⟩ := List.mem_filterMap.mp member
    cases action with
    | report message =>
        obtain rfl := Option.some.inj made
        exact ⟨rfl, rfl⟩
    | assert asserted => cases made
    | register body => cases made
    | log document => cases made
  logs := by
    intro entry member
    obtain ⟨action, _, made⟩ := List.mem_filterMap.mp member
    cases action with
    | log document =>
        obtain rfl := Option.some.inj made
        exact ⟨rfl, rfl⟩
    | assert asserted => cases made
    | register body => cases made
    | report message => cases made

end Context

namespace Rule

/-- What belongs to the program of a rule and lasts for one tick. -/
def Dynamic (rule : Rule) (owner : ProgramId) (isDynamic : Bool) : Prop :=
  owner = rule.source ∧ isDynamic = true

/-- A callback that fails contributes what it did before, and an error. -/
theorem effect_eq (rule : Rule) (context : Context) (reaction : Reaction) :
    rule.effect context reaction =
      context.contribution reaction.actions ++
        .ofFailure rule.failureEntry reaction.outcome.failure? := by
  unfold effect
  dsimp only
  cases reaction.outcome.failure? with
  | none => exact (World.append_empty _).symm
  | some failure => rfl

theorem effect_every (rule : Rule) (tick turn : Nat) (reaction : Reaction) :
    (rule.effect (rule.context tick turn) reaction).Every rule.Dynamic := by
  have made : ((rule.context tick turn).contribution reaction.actions).Every rule.Dynamic :=
    (rule.context tick turn).contribution_every reaction.actions
  rw [effect_eq]
  exact made.append (World.every_ofFailure (fun _ => ⟨rfl, rfl⟩) _)

/-- A callback that fails has made its claims all the same. -/
theorem effect_claims (rule : Rule) (context : Context) (reaction : Reaction) :
    (rule.effect context reaction).claims = reaction.actions.filterMap context.claim? := by
  rw [effect_eq, World.claims_append, World.ofFailure_claims, List.append_nil]
  rfl

/-- Matches that are handed over one at a time contribute call by call. -/
theorem deliverEach_contribution (rule : Rule) (tick : Nat)
    (callback : Context → Match → Reaction) (turn : Nat) (matches_ : List Match) :
    (rule.deliverEach tick callback turn matches_).contribution =
      World.concat (((rule.deliverEach tick callback turn matches_).delivered.zipIdx turn).map
        fun (m, turn) =>
          rule.effect (rule.context tick turn) (callback (rule.context tick turn) m)) := by
  induction matches_ generalizing turn with
  | nil => rfl
  | cons m rest ih =>
      rw [deliverEach]
      dsimp only
      split
      · exact (World.append_empty _).symm
      · rw [ih, List.zipIdx_cons, List.map_cons, World.concat_cons]

/-- The claims made in calls for one match each: everything that the calls
assert, also the one that fails. -/
theorem deliverEach_claims (rule : Rule) (tick : Nat) (callback : Context → Match → Reaction)
    (turn : Nat) (matches_ : List Match) :
    (rule.deliverEach tick callback turn matches_).contribution.claims =
      ((rule.deliverEach tick callback turn matches_).delivered.zipIdx turn).flatMap
        fun (m, turn) => (callback (rule.context tick turn) m).actions.filterMap
          (rule.context tick turn).claim? := by
  rw [deliverEach_contribution]
  simp only [World.concat, List.flatMap_map, effect_claims]

theorem deliverEach_every (rule : Rule) (tick : Nat) (callback : Context → Match → Reaction)
    (turn : Nat) (matches_ : List Match) :
    (rule.deliverEach tick callback turn matches_).contribution.Every rule.Dynamic := by
  rw [deliverEach_contribution]
  apply World.every_concat
  intro world member
  obtain ⟨⟨m, turn⟩, _, rfl⟩ := List.mem_map.mp member
  exact rule.effect_every tick turn _

/-- Whatever a callback does, what it contributes belongs to the program of its
rule and is dynamic. -/
theorem invoke_every (rule : Rule) (tick iteration turn : Nat) (matches_ : List Match) :
    (rule.invoke tick iteration turn matches_).contribution.Every rule.Dynamic := by
  unfold invoke deliver
  cases rule.body with
  | each patterns callback => exact rule.deliverEach_every tick callback turn matches_
  | grouped patterns callback => exact rule.effect_every tick 0 _
  | capture pattern callback => exact rule.deliverEach_every tick callback turn matches_

end Rule

namespace Program

/-- A registrar that fails contributes what it did before, and an error. -/
theorem registration_eq (program : Program) (tick : Nat) :
    let reaction := program.registrar (program.context tick)
    program.registration tick =
      (program.context tick).contribution reaction.actions ++
        .ofFailure program.failureEntry reaction.outcome.failure? := by
  unfold registration
  dsimp only
  cases (program.registrar (program.context tick)).outcome.failure? with
  | none => exact (World.append_empty _).symm
  | some failure => rfl

/-- Whatever a registrar does, what it contributes belongs to its program and is static. -/
theorem registration_every (program : Program) (tick : Nat) :
    (program.registration tick).Every fun owner isDynamic =>
      owner = program.id ∧ isDynamic = false := by
  have made := (program.context tick).contribution_every
    (program.registrar (program.context tick)).actions
  rw [registration_eq]
  exact made.append (World.every_ofFailure (fun _ => ⟨rfl, rfl⟩) _)

end Program

end Blackboard
