import Blackboard.Capture
import Blackboard.Proofs.Query.Meaning

/-!
# Patterns alongside templates

`Aligned` says when a pattern that misses agrees with a template and what is
captured of it, position by position and without an order of evaluation. Laying
the arguments alongside each other from left to right succeeds exactly then, with
this capture (`align_eq_some_iff`).
-/

namespace Blackboard

namespace Match

/-- Matches that bind the same variables to the same values are the same. -/
theorem ext_get? {m n : Match} (same : ∀ x, m.get? x = n.get? x) : m = n := by
  cases m
  cases n
  exact congrArg mk (Std.ExtTreeMap.ext_getElem? fun {x} => same x)

end Match

namespace Captures

/-- An argument of a pattern agrees with the argument of a template beside it: an
open variable with a slot, and anything else with an equal constant or with an
ordinary variable. -/
def Agrees (context : Match) (arg expected : Arg) : Prop :=
  match resolve context arg with
  | none => expected.isSlot = true
  | some value =>
    (∃ constant, expected = .val constant ∧ (value == constant) = true) ∨
      ∃ x, expected = .var x ∧ expected.isSlot = false

/-- What arguments of a pattern hold, under a match, at the last position of a
variable among the arguments of a template beside them. -/
def LastValue (context : Match) (x : String) (value : Value) (pairs : List (Arg × Arg)) : Prop :=
  ∃ before arg after, pairs = before ++ (arg, .var x) :: after ∧
    (∀ pair ∈ after, pair.2 ≠ .var x) ∧ resolve context arg = some value

/-- A pattern agrees with a template under a match, and the capture binds exactly
the ordinary variables of the template, each to the value at its last position. -/
structure Aligned (template pattern : Claim) (context captured : Match) : Prop where
  agree : List.Forall₂ (Agrees context) pattern.args template.args
  binds : ∀ x value, captured.get? x = some value ↔
    (Arg.var x).isSlot = false ∧ LastValue context x value (pattern.args.zip template.args)

/-! ## One position -/

/-- What a position adds to a capture. -/
def note (context : Match) (captured : Match) (arg expected : Arg) : Match :=
  match resolve context arg, expected with
  | some value, .var x => captured.bind x value
  | _, _ => captured

/-- Arguments are laid alongside each other one position at a time. -/
theorem alignArgs_cons_iff (context : Match) (arg expected : Arg) (args rest : List Arg)
    (captured m : Match) :
    alignArgs context (arg :: args) (expected :: rest) captured = some m ↔
      Agrees context arg expected ∧
        alignArgs context args rest (note context captured arg expected) = some m := by
  cases held : resolve context arg with
  | none => simp [alignArgs, Agrees, note, held]
  | some value =>
      cases expected with
      | val constant => simp [alignArgs, Agrees, note, held]
      | var x => cases slot : (Arg.var x).isSlot <;> simp [alignArgs, Agrees, note, held, slot]

/-- At a position where pattern and template agree, an ordinary variable of the
template is bound, and nothing else. -/
theorem get?_note_iff {context : Match} {arg expected : Arg}
    (agrees : Agrees context arg expected) (captured : Match) (x : String) (value : Value) :
    (note context captured arg expected).get? x = some value ↔
      ((Arg.var x).isSlot = false ∧ expected = .var x ∧ resolve context arg = some value) ∨
        (((Arg.var x).isSlot = true ∨ expected ≠ .var x) ∧ captured.get? x = some value) := by
  unfold Agrees at agrees
  unfold note
  cases held : resolve context arg with
  | none =>
      rw [held] at agrees
      have free : (Arg.var x).isSlot = true ∨ expected ≠ .var x := by
        by_cases here : expected = .var x
        · exact .inl (here ▸ agrees)
        · exact .inr here
      simp [free]
  | some other =>
      rw [held] at agrees
      cases expected with
      | val constant => simp
      | var y =>
          have ordinary : (Arg.var y).isSlot = false := by simpa using agrees
          rw [Match.get?_bind]
          by_cases same : y = x
          · subst y
            simp [ordinary]
          · simp [same]

theorem lastValue_cons_iff (context : Match) (x : String) (value : Value) (arg expected : Arg)
    (rest : List (Arg × Arg)) :
    LastValue context x value ((arg, expected) :: rest) ↔
      LastValue context x value rest ∨
        ((∀ pair ∈ rest, pair.2 ≠ .var x) ∧ expected = .var x ∧
          resolve context arg = some value) := by
  constructor
  · rintro ⟨before, last, after, split, noLater, held⟩
    cases before with
    | nil =>
        obtain ⟨here, rfl⟩ := List.cons.inj split
        obtain ⟨rfl, rfl⟩ := Prod.mk.inj here
        exact .inr ⟨noLater, rfl, held⟩
    | cons first before =>
        obtain ⟨_, splitRest⟩ := List.cons.inj split
        exact .inl ⟨before, last, after, splitRest, noLater, held⟩
  · rintro (⟨before, last, after, rfl, noLater, held⟩ | ⟨noLater, rfl, held⟩)
    · exact ⟨(arg, expected) :: before, last, after, rfl, noLater, held⟩
    · exact ⟨[], arg, rest, rfl, noLater, held⟩

/-! ## All positions -/

/-- What is captured on top of what was captured before. -/
def Binds (context : Match) (pairs : List (Arg × Arg)) (captured m : Match) : Prop :=
  ∀ x value, m.get? x = some value ↔
    ((Arg.var x).isSlot = false ∧ LastValue context x value pairs) ∨
      (((Arg.var x).isSlot = true ∨ ∀ pair ∈ pairs, pair.2 ≠ .var x) ∧
        captured.get? x = some value)

theorem binds_nil_iff (context captured m : Match) :
    Binds context [] captured m ↔ captured = m := by
  constructor
  · intro binds
    apply Match.ext_get?
    intro x
    apply Option.ext
    intro value
    simpa [LastValue] using (binds x value).symm
  · rintro rfl x value
    simp [LastValue]

theorem binds_cons_iff {context : Match} {arg expected : Arg}
    (agrees : Agrees context arg expected) (rest : List (Arg × Arg)) (captured m : Match) :
    Binds context rest (note context captured arg expected) m ↔
      Binds context ((arg, expected) :: rest) captured m := by
  unfold Binds
  apply forall₂_congr
  intro x value
  rw [lastValue_cons_iff, get?_note_iff agrees, List.forall_mem_cons]
  apply iff_congr Iff.rfl
  cases (Arg.var x).isSlot with
  | true => simp
  | false =>
      simp only [Bool.false_eq_true, true_and, false_or]
      tauto

theorem alignArgs_eq_some_iff (context : Match) (args expected : List Arg) (captured m : Match) :
    alignArgs context args expected captured = some m ↔
      List.Forall₂ (Agrees context) args expected ∧
        Binds context (args.zip expected) captured m := by
  induction args generalizing expected captured with
  | nil =>
      cases expected with
      | nil => simp [alignArgs, binds_nil_iff]
      | cons first rest => simp [alignArgs]
  | cons arg args ih =>
      cases expected with
      | nil => simp [alignArgs]
      | cons first rest =>
          rw [alignArgs_cons_iff, ih, List.forall₂_cons, List.zip_cons_cons, and_assoc]
          apply and_congr_right
          intro agrees
          rw [binds_cons_iff agrees]

/-- A pattern is captured by a template exactly if it is aligned with it. -/
theorem align_eq_some_iff (template pattern : Claim) (context captured : Match) :
    align template pattern context = some captured ↔ Aligned template pattern context captured := by
  have fromNothing : Binds context (pattern.args.zip template.args) ∅ captured ↔
      ∀ x value, captured.get? x = some value ↔ (Arg.var x).isSlot = false ∧
        LastValue context x value (pattern.args.zip template.args) := by
    simp [Binds]
  rw [align, alignArgs_eq_some_iff, fromNothing]
  constructor
  · rintro ⟨agree, binds⟩
    exact ⟨agree, binds⟩
  · rintro ⟨agree, binds⟩
    exact ⟨agree, binds⟩

end Captures

end Blackboard
