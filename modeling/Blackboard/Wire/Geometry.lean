import Blackboard.Geometry
import Blackboard.Value.Basic
import Blackboard.Wire.Fields

/-!
# Points and corners as documents

The written forms of the types of `Blackboard.Geometry`, and how they are read.
Corners and points also travel as the payloads of structured values; there the
members stand in the order of their keys.
-/

namespace Blackboard

namespace Point

def toJson (p : Point) : Json := .object [("x", .ofBinary64 p.x), ("y", .ofBinary64 p.y)]

def ofJson? (document : Json) : Option Point := do
  let fields ← document.fields? ["x", "y"]
  return { x := ← fields.required "x" Json.number?
           y := ← fields.required "y" Json.number? }

end Point

namespace Corners

def toJson (corners : Corners) : Json :=
  .object [("topLeft", corners.topLeft.toJson), ("topRight", corners.topRight.toJson),
    ("bottomRight", corners.bottomRight.toJson), ("bottomLeft", corners.bottomLeft.toJson)]

def ofJson? (document : Json) : Option Corners := do
  let fields ← document.fields? ["topLeft", "topRight", "bottomRight", "bottomLeft"]
  return { topLeft := ← fields.required "topLeft" Point.ofJson?
           topRight := ← fields.required "topRight" Point.ofJson?
           bottomRight := ← fields.required "bottomRight" Point.ofJson?
           bottomLeft := ← fields.required "bottomLeft" Point.ofJson? }

end Corners

namespace Placement

def toJson (placement : Placement) : Json :=
  .object [("corners", placement.corners.toJson), ("center", placement.center.toJson)]

def ofJson? (document : Json) : Option Placement := do
  let fields ← document.fields? ["corners", "center"]
  return { corners := ← fields.required "corners" Corners.ofJson?
           center := ← fields.required "center" Point.ofJson? }

end Placement

namespace Viewport

def toJson (viewport : Viewport) : Json :=
  .object [("width", .ofBinary64 viewport.width), ("height", .ofBinary64 viewport.height)]

/-- Each dimension has a default. -/
def ofJson? (document : Json) : Option Viewport := do
  let fields ← document.fields? ["width", "height"]
  let standard : Viewport := {}
  return { width := ← fields.optional "width" Json.number? standard.width
           height := ← fields.optional "height" Json.number? standard.height }

end Viewport

namespace Json

/-- A number or `null` is in canonical form. -/
theorem canonical_ofBinary64 (x : Binary64) :
    (ofBinary64 x).canonical = ofBinary64 x ∧ (ofBinary64 x).isCanonical = true := by
  unfold ofBinary64
  split <;> simp [canonical, isCanonical]

end Json

namespace Point

theorem isCanonical_toJson (p : Point) : p.toJson.isCanonical = true := by
  have x := Json.canonical_ofBinary64 p.x
  have y := Json.canonical_ofBinary64 p.y
  have keys : compare "x" "y" = .lt := by decide
  simp [toJson, Json.isCanonical, Json.ascending, Json.haveCanonical, Json.hasCanonical, x, y, keys]

/-- The point as the payload of a structured value. -/
def payload (p : Point) : Payload := ⟨p.toJson, p.isCanonical_toJson⟩

end Point

namespace Corners

/-- The document of the corners with its members in the order of their keys. -/
def sorted (corners : Corners) : Json :=
  .object [("bottomLeft", corners.bottomLeft.toJson), ("bottomRight", corners.bottomRight.toJson),
    ("topLeft", corners.topLeft.toJson), ("topRight", corners.topRight.toJson)]

theorem isCanonical_sorted (corners : Corners) : corners.sorted.isCanonical = true := by
  have left : compare "bottomLeft" "bottomRight" = .lt := by decide
  have middle : compare "bottomRight" "topLeft" = .lt := by decide
  have right : compare "topLeft" "topRight" = .lt := by decide
  simp [sorted, Json.isCanonical, Json.ascending, Json.haveCanonical, Json.hasCanonical,
    Point.isCanonical_toJson, left, middle, right]

/-- The corners as the payload of a structured value. -/
def payload (corners : Corners) : Payload := ⟨corners.sorted, corners.isCanonical_sorted⟩

end Corners

namespace Value

/-- The point that a structured value carries. -/
def point? (value : Value) : Option Point :=
  value.payload?.bind fun payload => Point.ofJson? payload.document

/-- The corners that a structured value carries. -/
def corners? (value : Value) : Option Corners :=
  value.payload?.bind fun payload => Corners.ofJson? payload.document

/-- The placement that a structured value carries. -/
def placement? (value : Value) : Option Placement :=
  value.payload?.bind fun payload => Placement.ofJson? payload.document

/-- The viewport that a structured value carries. -/
def viewport? (value : Value) : Option Viewport :=
  value.payload?.bind fun payload => Viewport.ofJson? payload.document

end Value

end Blackboard
