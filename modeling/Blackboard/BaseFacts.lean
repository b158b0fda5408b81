import Blackboard.Program
import Blackboard.Wire.Geometry

/-!
# Base facts

Every tick starts from facts that the engine supplies: the time, the corners of
the table and, for every program, what it is, where it lies on the table and the
corners and the center of the place, scaled to the viewport.
-/

namespace Blackboard

/-- When a tick takes place. -/
structure Moment where
  tick : Nat
  /-- Milliseconds of the clock. -/
  millis : Int64

/-- A source of base facts. -/
abbrev BaseFacts := Moment → List Program → List Claim

namespace BaseFacts

def currentTime : String := "current time is @"
def hasCornerPoints : String := "@ has corner points @"
def hasCenterPoint : String := "@ has center point @"
def isA : String := "@ is a @"
def isOnSupporter : String := "@ is on supporter @"

/-- The surface that every program lies on. -/
def table : Value := .text "table"

/-- A structured value that is made for the facts of a tick. -/
def supplied (moment : Moment) (index : Nat) (payload : Payload) : Value :=
  .structured (.item (.base moment.tick) index) payload

/-- The facts about the program at an index of the list. -/
def aboutProgram (viewport : Viewport) (moment : Moment) (index : Nat) (program : Program) :
    List Claim :=
  let id := Value.ofProgramId program.id
  let place := match program.placement with
    | none => []
    | some placement =>
      let factor := viewport.toPoint
      [ .fact hasCornerPoints
          [id, supplied moment (2 * index + 1) (placement.corners.scale factor).payload],
        .fact hasCenterPoint
          [id, supplied moment (2 * index + 2) (placement.center.scale factor).payload] ]
  .fact isA [id, .text "program"] :: .fact isOnSupporter [id, table] :: place

/-- The standard source. It can be given a fixed time. -/
def core (viewport : Viewport) (fixedTime : Option Int64) : BaseFacts := fun moment programs =>
  .fact currentTime [.int (fixedTime.getD moment.millis)] ::
    .fact hasCornerPoints
      [table, supplied moment 0 (Corners.rectangle viewport.width viewport.height).payload] ::
    programs.zipIdx.flatMap fun (program, index) => aboutProgram viewport moment index program

end BaseFacts

end Blackboard
