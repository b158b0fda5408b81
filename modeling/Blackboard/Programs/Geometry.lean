import Blackboard.BaseFacts

/-!
# The geometry program

The built-in program `geometry` derives sizes and centers from corner points,
in pixels and in each real-world unit, and for programs whose size is known
both ways the number of pixels per unit. An entity is known by whatever value
stands in front of its corner points.
-/

namespace Blackboard.Programs

namespace Geometry

def hasWidth : String := "@ has width @"
def hasHeight : String := "@ has height @"

/-- The names of the claims that concern one unit of length. -/
structure Dimensions where
  corners : String
  width : String
  height : String
  center : String

/-- In pixels. -/
def pixels : Dimensions where
  corners := BaseFacts.hasCornerPoints
  width := hasWidth
  height := hasHeight
  center := BaseFacts.hasCenterPoint

/-- In a real-world unit, named in the plural. -/
def inUnit (unit : String) : Dimensions where
  corners := s!"{BaseFacts.hasCornerPoints} in {unit}"
  width := s!"{hasWidth} {unit}"
  height := s!"{hasHeight} {unit}"
  center := s!"{BaseFacts.hasCenterPoint} in {unit}"

/-- The entity and the corner points of a match. -/
def objectAndPoints (m : Match) : Except Fault (Value × Corners) := do
  let object ← m.require "object"
  match (m.get? "points").bind Value.corners? with
  | some points => return (object, points)
  | none => throw (.callback "'points' is not a set of corner points")

/-- The number bound to a variable. -/
def number (m : Match) (variableName : String) : Except Fault Binary64 := do
  let value ← m.require variableName
  match value.number? with
  | some x => return x
  | none => throw (.callback s!"'{variableName}' is not a number")

/-- The payload of a point as a structured value that is made in a callback. -/
def made (context : Context) (p : Point) : Value :=
  .structured (.item context.origin 0) p.payload

/-- Claims the width and the height of corner points. -/
def claimSize (names : Dimensions) (_ : Context) (m : Match) : Reaction :=
  .ofExcept do
    let (object, points) ← objectAndPoints m
    return [.assert (.fact names.width [object, .float points.width]),
      .assert (.fact names.height [object, .float points.height])]

/-- Claims the center of corner points. -/
def claimCenter (names : Dimensions) (context : Context) (m : Match) : Reaction :=
  .ofExcept do
    let (object, points) ← objectAndPoints m
    return [.assert (.fact names.center [object, made context points.center])]

/-- Claims how many pixels there are per unit, in width and in height. -/
def claimRatio (name : String) (context : Context) (m : Match) : Reaction :=
  .ofExcept do
    let object ← m.require "object"
    let x := (← number m "width_pixels") / (← number m "width_units")
    let y := (← number m "height_pixels") / (← number m "height_units")
    return [.assert (.fact name [object, made context ⟨x, y⟩])]

/-- The rules that derive size and center in one unit. -/
def dimensionRules (names : Dimensions) : List Action :=
  let pattern : Claim := { name := names.corners, args := [.var "object", .var "points"] }
  [.register (.each [pattern] (claimSize names)), .register (.each [pattern] (claimCenter names))]

/-- The rule for the number of pixels per unit of programs. -/
def ratioRule (names : Dimensions) (ratio : String) : Action :=
  let ofObject (name x : String) : Claim := { name, args := [.var "object", .var x] }
  .register (.each
    [ { name := BaseFacts.isA, args := [.var "object", .val (.text "program")] },
      ofObject hasWidth "width_pixels",
      ofObject hasHeight "height_pixels",
      ofObject names.width "width_units",
      ofObject names.height "height_units" ]
    (claimRatio ratio))

/-- The rules for a unit, given in the plural and in the singular. -/
def unitRules (unit singular : String) : List Action :=
  dimensionRules (inUnit unit) ++ [ratioRule (inUnit unit) s!"@ has @ pixels per {singular}"]

/-- All rules of the program. -/
def rules : List Action :=
  dimensionRules pixels ++ unitRules "cm" "cm" ++ unitRules "inches" "inch"

end Geometry

/-- The program that derives sizes, centers and pixels per unit. -/
def geometry : Program :=
  .ofSource ⟨"geometry"⟩ "core geometry 0.1.0" fun _ => ⟨Geometry.rules, .done⟩

end Blackboard.Programs
