import Blackboard.Proofs.Query.Misses

/-!
# Facts that answer a miss

A capture says what to supply: a fact that keeps the constants of the template, holds
what the capture binds the ordinary variables to, and anything in the slots
(`Captures.Completes`). Such a fact lets the pattern match that missed exactly if the
pattern holds equal values wherever the template repeats an ordinary variable
(`Database.insert_answers_miss_iff`). Otherwise the capture, which binds a variable once,
has forgotten one of them (`Database.capture_forgets`).
-/

namespace Blackboard

/-! ## What a pattern asks of a tuple -/

/-- The value beside the first occurrence of a variable is beside an occurrence of it. -/
theorem mem_of_firstValue?_eq_some {x : String} {pairs : List (Arg × Value)} {first : Value}
    (found : firstValue? x pairs = some first) : (Arg.var x, first) ∈ pairs := by
  obtain ⟨⟨arg, value⟩, member, chosen⟩ := List.exists_of_findSome?_eq_some found
  obtain ⟨named, rfl⟩ := Option.ite_none_right_eq_some.mp chosen |>.imp_right Option.some.inj
  cases arg with
  | val constant => cases named
  | var y =>
      obtain rfl : y = x := Option.some.inj named
      exact member

namespace Match

/-- Values beside a repeated open variable equal the ones before them. -/
def Coherent (m : Match) (pairs : List (Arg × Value)) : Prop :=
  pairs.Pairwise fun earlier later => ∀ x, earlier.1 = .var x → later.1 = .var x →
    m.get? x = none → (later.2 == earlier.2) = true

/-- Where pairs fit, every value equals what the argument beside it holds. -/
theorem Fits.beq_of_resolve {m : Match} {pairs : List (Arg × Value)} (fits : m.Fits pairs)
    {arg : Arg} {value held : Value} (member : (arg, value) ∈ pairs)
    (resolved : Captures.resolve m arg = some held) : (value == held) = true := by
  cases arg with
  | val constant =>
      obtain rfl : constant = held := Option.some.inj resolved
      exact fits.constants constant value member
  | var x =>
      obtain ⟨before, after, split⟩ := List.append_of_mem member
      have bound : m.get? x = some held := resolved
      exact fits.occurrences before x value after split held (by rw [bound, Option.some_or])

/-- Pairs fit if every value equals what the argument beside it holds, and the others
are coherent. -/
theorem fits_of_resolve {m : Match} {pairs : List (Arg × Value)}
    (equal : ∀ arg value, (arg, value) ∈ pairs → ∀ held, Captures.resolve m arg = some held →
      (value == held) = true)
    (coherent : m.Coherent pairs) : m.Fits pairs where
  constants constant value member := equal _ value member constant rfl
  occurrences := by
    intro before x value after split first found
    subst split
    have member : (Arg.var x, value) ∈ before ++ (Arg.var x, value) :: after :=
      List.mem_append_right before List.mem_cons_self
    cases bound : m.get? x with
    | some held =>
        rw [bound, Option.some_or] at found
        exact equal _ value member first (bound.trans found)
    | none =>
        rw [bound, Option.none_or] at found
        have earlier := mem_of_firstValue?_eq_some found
        have separate := (List.pairwise_append.mp coherent).2.2
        exact separate _ earlier _ List.mem_cons_self x rfl rfl bound

end Match

namespace Store

/-- A pattern that finds nothing matches after the insertion of a fact of its name
exactly if that fact fits. -/
theorem Indexed.extensions_insert_ne_nil_iff {store : Store} (indexed : store.Indexed)
    {pattern fact : Claim} {context : Match} (missed : store.extensions pattern context = [])
    (isFact : fact.IsFact) (sameName : fact.name = pattern.name) {values : Tuple}
    (valuesEq : fact.values? = some values) :
    (store.insert fact).extensions pattern context ≠ [] ↔
      values.length = pattern.args.length ∧ context.Fits (pattern.args.zip values) := by
  rw [indexed.extensions_eq] at missed
  rw [(indexed.insert fact).extensions_eq, tuples_insert,
    factsOf_singleton_of_isFact isFact valuesEq, if_pos sameName, List.filterMap_append, missed,
    List.nil_append, ← not_iff_not, not_not, ← fit?_eq_none_iff]
  simp

end Store

namespace Captures

/-! ## Facts made from a capture -/

/-- A value that may stand for an argument of a template: a constant for itself, what a
capture binds it to for an ordinary variable, and any value for a slot. -/
def Stands (captured : Match) (expected : Arg) (value : Value) : Prop :=
  match expected with
  | .val constant => value = constant
  | .var x => expected.isSlot = false → captured.get? x = some value

theorem stands_of_slot {expected : Arg} (slot : expected.isSlot = true) (captured : Match)
    (value : Value) : Stands captured expected value := by
  cases expected with
  | val constant => cases slot
  | var x =>
      intro ordinary
      rw [slot] at ordinary
      cases ordinary

/-- A ground claim made from a template and what it captured of a pattern. Where the
pattern repeats an open variable, the slots are given equal values. -/
structure Completes (template pattern : Claim) (context captured : Match) (fact : Claim) :
    Prop where
  name : fact.name = template.name
  values : ∃ values, fact.args = values.map .val ∧
    List.Forall₂ (Stands captured) template.args values ∧
    context.Coherent (pattern.args.zip values)

/-- A pattern holds equal values wherever a template repeats an ordinary variable. -/
def Consistent (template pattern : Claim) (context : Match) : Prop :=
  (pattern.args.zip template.args).Pairwise fun earlier later =>
    ∀ x, earlier.2 = .var x → later.2 = .var x → (Arg.var x).isSlot = false →
      ∀ first second, resolve context earlier.1 = some first →
        resolve context later.1 = some second → (first == second) = true

section Completes

variable {template pattern : Claim} {context captured : Match} {values : Tuple}

/-- A value beside an argument of the pattern stands for the argument of the template there. -/
theorem exists_expected_of_mem {args rest : List Arg}
    (agree : List.Forall₂ (Agrees context) args rest)
    (stand : List.Forall₂ (Stands captured) rest values) {arg : Arg} {value : Value}
    (member : (arg, value) ∈ args.zip values) :
    ∃ expected, (arg, expected) ∈ args.zip rest ∧ Agrees context arg expected ∧
      Stands captured expected value := by
  induction agree generalizing values with
  | nil => cases member
  | cons agrees _ ih =>
      cases stand with
      | cons stands stand =>
          rcases List.mem_cons.mp member with here | further
          · obtain ⟨rfl, rfl⟩ := Prod.mk.inj here
            exact ⟨_, List.mem_cons_self, agrees, stands⟩
          · obtain ⟨expected, listed, both⟩ := ih stand further
            exact ⟨expected, List.mem_cons_of_mem _ listed, both⟩

/-- Beside every argument of the pattern there is a value for the argument of the template. -/
theorem exists_value_of_mem {args rest : List Arg} (lengthEq : args.length = rest.length)
    (stand : List.Forall₂ (Stands captured) rest values) {arg expected : Arg}
    (member : (arg, expected) ∈ args.zip rest) :
    ∃ value, (arg, value) ∈ args.zip values ∧ Stands captured expected value := by
  induction stand generalizing args with
  | nil => simp at member
  | cons stands _ ih =>
      cases args with
      | nil => cases member
      | cons first args =>
          rcases List.mem_cons.mp member with here | further
          · obtain ⟨rfl, rfl⟩ := Prod.mk.inj here
            exact ⟨_, List.mem_cons_self, stands⟩
          · obtain ⟨value, listed, standsHere⟩ := ih (Nat.succ.inj lengthEq) further
            exact ⟨value, List.mem_cons_of_mem _ listed, standsHere⟩

/-- What the pattern holds beside an ordinary variable of the template equals what is
captured of it, which is the value at its last position. -/
theorem Aligned.beq_of_consistent (aligned : Aligned template pattern context captured)
    (consistent : Consistent template pattern context)
    (numbers : ∀ arg ∈ pattern.args, ∀ held, resolve context arg = some held → ¬ held.IsNaN)
    {arg : Arg} {x : String} (ordinary : (Arg.var x).isSlot = false)
    (member : (arg, Arg.var x) ∈ pattern.args.zip template.args) {held value : Value}
    (resolved : resolve context arg = some held) (bound : captured.get? x = some value) :
    (held == value) = true := by
  obtain ⟨_, before, last, after, split, noLater, lastResolved⟩ :=
    (aligned.binds x value).mp bound
  unfold Consistent at consistent
  rw [split] at consistent
  have listed := member
  rw [split] at listed
  rcases List.mem_append.mp listed with earlier | later
  · have separate := (List.pairwise_append.mp consistent).2.2
    exact separate _ earlier _ List.mem_cons_self x rfl rfl ordinary held value resolved
      lastResolved
  · rcases List.mem_cons.mp later with here | further
    · obtain ⟨rfl, _⟩ := Prod.mk.inj here
      obtain rfl : held = value := Option.some.inj (resolved.symm.trans lastResolved)
      exact (held.beq_self_iff).mpr (numbers arg (List.of_mem_zip member).1 held resolved)
    · exact absurd rfl (noLater _ further)

/-- A completion fits the pattern exactly if the pattern is consistent with the template. -/
theorem Aligned.fits_iff_consistent (aligned : Aligned template pattern context captured)
    (numbers : ∀ arg ∈ pattern.args, ∀ held, resolve context arg = some held → ¬ held.IsNaN)
    (stand : List.Forall₂ (Stands captured) template.args values)
    (coherent : context.Coherent (pattern.args.zip values)) :
    context.Fits (pattern.args.zip values) ↔ Consistent template pattern context := by
  constructor
  · intro fits
    have equal : ∀ arg x, (arg, Arg.var x) ∈ pattern.args.zip template.args →
        (Arg.var x).isSlot = false → ∀ held, resolve context arg = some held →
        ∃ value, captured.get? x = some value ∧ (value == held) = true := by
      intro arg x member ordinary held resolved
      obtain ⟨value, beside, stands⟩ := exists_value_of_mem aligned.agree.length_eq stand member
      exact ⟨value, stands ordinary, fits.beq_of_resolve beside resolved⟩
    refine List.pairwise_of_forall_mem_list fun earlier earlierMem later laterMem => ?_
    rcases earlier with ⟨arg, expected⟩
    rcases later with ⟨arg', expected'⟩
    rintro x rfl rfl ordinary first second firstResolved secondResolved
    obtain ⟨value, bound, firstEqual⟩ := equal arg x earlierMem ordinary first firstResolved
    obtain ⟨other, otherBound, secondEqual⟩ :=
      equal arg' x laterMem ordinary second secondResolved
    obtain rfl : value = other := Option.some.inj (bound.symm.trans otherBound)
    exact Value.beq_trans (Value.beq_symm firstEqual) secondEqual
  · intro consistent
    refine Match.fits_of_resolve ?_ coherent
    intro arg value member held resolved
    obtain ⟨expected, listed, agrees, stands⟩ := exists_expected_of_mem aligned.agree stand member
    unfold Agrees at agrees
    rw [resolved] at agrees
    rcases agrees with ⟨constant, rfl, equal⟩ | ⟨x, rfl, ordinary⟩
    · obtain rfl : value = constant := stands
      exact Value.beq_symm equal
    · apply Value.beq_symm
      exact aligned.beq_of_consistent consistent numbers ordinary listed resolved (stands ordinary)

/-- A template repeats no ordinary variable. -/
def Linear (template : Claim) : Prop :=
  template.args.Pairwise fun earlier later =>
    ∀ x, earlier = .var x → later = .var x → (Arg.var x).isSlot = true

theorem Linear.consistent (linear : Linear template)
    (lengthEq : pattern.args.length = template.args.length) (context : Match) :
    Consistent template pattern context := by
  have expected : (pattern.args.zip template.args).map Prod.snd = template.args :=
    List.map_snd_zip lengthEq.ge
  unfold Linear at linear
  rw [← expected, List.pairwise_map] at linear
  refine linear.imp fun repeated x earlier later ordinary => ?_
  rw [repeated x earlier later] at ordinary
  cases ordinary

end Completes

end Captures

namespace Database

/-- Inserting a completion of what a miss captured makes the pattern match exactly if
the pattern holds equal values wherever the template repeats an ordinary variable. This
is so for every pattern if the template repeats none. Equal values need not be
identical: whole numbers and numbers are compared by what they are, and structured
values by where they were made. -/
theorem insert_answers_miss_iff (claims : List Claim) (captures : Captures)
    {template pattern fact : Claim} {context captured : Match}
    (registered : captures.template? pattern.name = some template)
    (sameName : template.name = pattern.name) (named : template.name ≠ "")
    (missed : (Store.ofClaims claims).extensions pattern context = [])
    (recorded : captures.capture? pattern context = some captured)
    (numbers : ∀ arg ∈ pattern.args, ∀ held, Captures.resolve context arg = some held →
      ¬ held.IsNaN)
    (completes : Captures.Completes template pattern context captured fact) :
    let db : Database := { store := .ofClaims claims, captures }
    ((db.insert fact).store.extensions pattern context ≠ [] ↔
        Captures.Consistent template pattern context) ∧
      (Captures.Linear template → Captures.Consistent template pattern context) := by
  intro db
  have aligned : Captures.Aligned template pattern context captured := by
    rw [Captures.capture?, registered, Option.bind_some] at recorded
    exact (Captures.align_eq_some_iff template pattern context captured).mp recorded
  have lengthEq : pattern.args.length = template.args.length := aligned.agree.length_eq
  obtain ⟨values, argsEq, stand, coherent⟩ := completes.values
  have valuesEq : fact.values? = some values := (fact.values?_eq_some_iff values).mpr argsEq
  have isFact : fact.IsFact :=
    ⟨completes.name ▸ named, fact.isGround_iff_exists_values.mpr ⟨values, valuesEq⟩⟩
  refine ⟨?_, fun linear => linear.consistent lengthEq context⟩
  have indexed : db.store.Indexed := Store.indexed_ofClaims claims
  rw [insert, indexed.extensions_insert_ne_nil_iff missed isFact
    (completes.name.trans sameName) valuesEq, ← aligned.fits_iff_consistent numbers stand coherent]
  exact and_iff_right (stand.length_eq.symm.trans lengthEq.symm)

/-- Who met whom how often. -/
def meetings (first second times : Arg) : Claim :=
  { name := "@ met @ @ times", args := [first, second, times] }

/-- A template that repeats a variable, beside a whole number and an equal number that
is bound. -/
theorem insert_answers_miss_iff_of_equal_numbers :
    let template := meetings (.var "x") (.var "x") (.var "?n")
    let pattern := meetings (.val (.int 2)) (.var "y") (.var "n")
    let two : Value := .float ⟨0x4000000000000000⟩
    let context := (∅ : Match).bind "y" two
    let fact : Claim := .fact template.name [two, two, .int 3]
    let db : Database := { store := .ofClaims [.fact template.name [two, .int 1, .int 3]] }
    ∃ captures captured, db.captures.register template = .ok captures ∧
      captures.capture? pattern context = some captured ∧
      Captures.Completes template pattern context captured fact ∧
      db.store.extensions pattern context = [] ∧
      (({ db with captures } : Database).insert fact).store.extensions pattern context ≠ [] := by
  intro template pattern two context fact db
  let captures : Captures :=
    { templates := (∅ : Std.ExtTreeMap String Claim).insert template.name template }
  let captured : Match := ((∅ : Match).bind "x" (.int 2)).bind "x" two
  have bound : context.get? "y" = some two := by simp [context, Match.get?_bind]
  have unbound : context.get? "n" = none := by simp [context, Match.get?_bind]
  have repeated : captured.get? "x" = some two := by simp [captured, Match.get?_bind]
  have registered : captures.template? pattern.name = some template := by
    simp [captures, Captures.template?, pattern, template, meetings]
  have recorded : captures.capture? pattern context = some captured := by
    rw [Captures.capture?, registered]
    simp [Captures.align, Captures.alignArgs, Captures.resolve, Arg.isSlot, pattern, template,
      meetings, bound, unbound, captured]
  have missed : db.store.extensions pattern context = [] := by
    apply List.isEmpty_iff.mp
    decide +kernel
  have completes : Captures.Completes template pattern context captured fact := by
    refine ⟨rfl, [two, two, .int 3], rfl, ?_, ?_⟩
    · exact .cons (fun _ => repeated) (.cons (fun _ => repeated)
        (.cons (Captures.stands_of_slot rfl captured (.int 3)) .nil))
    · simp [Match.Coherent, pattern, meetings]
  have consistent : Captures.Consistent template pattern context := by
    have equal : (Value.int 2 == two) = true := by decide +kernel
    simp [Captures.Consistent, Captures.resolve, pattern, template, meetings, bound, unbound, equal]
  have numbers : ∀ arg ∈ pattern.args, ∀ held, Captures.resolve context arg = some held →
      ¬ held.IsNaN := by
    have number : ¬ two.IsNaN := (two.beq_self_iff).mp (by decide +kernel)
    have whole : ¬ (Value.int 2).IsNaN := (Value.int 2).beq_self_iff.mp rfl
    simp [Captures.resolve, pattern, meetings, bound, unbound, number, whole]
  refine ⟨captures, captured, rfl, recorded, completes, missed, ?_⟩
  exact (insert_answers_miss_iff [.fact template.name [two, .int 1, .int 3]] captures
    registered rfl (by decide) missed recorded numbers completes).1.mpr consistent

/-- A template that repeats a variable, beside two names. The capture keeps the second,
and the fact made of it is about someone else. -/
theorem capture_forgets :
    let template := meetings (.var "x") (.var "x") (.var "?n")
    let pattern := meetings (.val (.text "Homer")) (.val (.text "Marge")) (.var "n")
    let fact : Claim := .fact template.name [.text "Marge", .text "Marge", .int 3]
    ∃ captures captured, (∅ : Captures).register template = .ok captures ∧
      captures.capture? pattern ∅ = some captured ∧
      Captures.Completes template pattern ∅ captured fact ∧
      (∀ arg ∈ pattern.args, ∀ held, Captures.resolve ∅ arg = some held → ¬ held.IsNaN) ∧
      (∅ : Store).extensions pattern ∅ = [] ∧
      (({ captures } : Database).insert fact).store.extensions pattern ∅ = [] := by
  intro template pattern fact
  let captures : Captures :=
    { templates := (∅ : Std.ExtTreeMap String Claim).insert template.name template }
  let captured : Match := ((∅ : Match).bind "x" (.text "Homer")).bind "x" (.text "Marge")
  have kept : captured.get? "x" = some (.text "Marge") := by simp [captured, Match.get?_bind]
  refine ⟨captures, captured, rfl, ?_, ⟨rfl, [.text "Marge", .text "Marge", .int 3], rfl, ?_, ?_⟩,
    ?_, ?_, ?_⟩
  · simp [Captures.capture?, Captures.template?, Captures.align, Captures.alignArgs,
      Captures.resolve, Arg.isSlot, captures, captured, template, pattern, meetings]
  · exact .cons (fun _ => kept) (.cons (fun _ => kept)
      (.cons (Captures.stands_of_slot rfl captured (.int 3)) .nil))
  · simp [Match.Coherent, pattern, meetings]
  · simp [Captures.resolve, Value.IsNaN, pattern, meetings]
  · apply List.isEmpty_iff.mp
    decide +kernel
  · apply List.isEmpty_iff.mp
    decide +kernel

end Database

end Blackboard
