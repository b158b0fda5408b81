import Std.Data.ExtTreeMap

/-!
# Who and where

`ProgramId` names a program. `Origin` names a place where something comes into
being: a rule, a structured value, an error. Places are told apart by how they
were reached and not by a counter that all of them share, so that what one
program does never renames what another one makes.
-/

namespace Blackboard

/-- The name of a program. -/
structure ProgramId where
  text : String
deriving DecidableEq, Repr, Inhabited

namespace ProgramId

/-- The name under which the engine itself speaks. -/
def core : ProgramId := ⟨"core"⟩

/-- Names are ordered as their texts are: by code points. -/
instance : Ord ProgramId := ⟨fun a b => compare a.text b.text⟩

theorem compare_def (a b : ProgramId) : compare a b = compare a.text b.text := rfl

instance : Std.TransOrd ProgramId where
  eq_swap {a b} := Std.OrientedOrd.eq_swap (a := a.text) (b := b.text)
  isLE_trans {a b c} := Std.TransOrd.isLE_trans (a := a.text) (b := b.text) (c := c.text)

instance : Std.LawfulEqOrd ProgramId where
  compare_self := by simp
  eq_of_compare := by
    intro a b same
    cases a
    cases b
    simpa [compare_def] using same

instance : ToString ProgramId := ⟨ProgramId.text⟩

end ProgramId

/-- A place where things come into being. -/
inductive Origin where
  /-- Supplied from outside, as the `index`-th thing. -/
  | given (index : Nat)
  /-- The facts that the engine supplies in a tick. -/
  | base (tick : Nat)
  /-- The registration of a program that starts in a tick. -/
  | registration (tick : Nat) (program : ProgramId)
  /-- One call of a rule's callback in a tick, counted from zero. -/
  | call (rule : Origin) (tick turn : Nat)
  /-- The `index`-th thing made at a place. -/
  | item (place : Origin) (index : Nat)
deriving DecidableEq, Repr, Inhabited

end Blackboard
