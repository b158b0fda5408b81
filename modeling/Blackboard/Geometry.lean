import Blackboard.Binary64.Hypotenuse

/-!
# Points and corners

Programs lie on a surface. Where one lies is given by its four corners,
clockwise from the top left, and by its center; the coordinates are fractions
of the surface until they are scaled to a viewport.
-/

namespace Blackboard

structure Point where
  x : Binary64
  y : Binary64
deriving DecidableEq, Repr, Inhabited

namespace Point

def origin : Point := ⟨0, 0⟩

/-- Scales each coordinate by that of another point. -/
def scale (p factor : Point) : Point := ⟨p.x * factor.x, p.y * factor.y⟩

def distance (p q : Point) : Binary64 := (p.x - q.x).hypotenuse (p.y - q.y)

/-- The mean of some points; the origin if there are none. -/
def average (points : List Point) : Point :=
  if points.isEmpty then
    origin
  else
    let sum := points.foldl (fun sum p => ⟨sum.x + p.x, sum.y + p.y⟩) origin
    let count := Binary64.ofInt points.length
    ⟨sum.x / count, sum.y / count⟩

end Point

/-- The corners of a region, clockwise from the top left. -/
structure Corners where
  topLeft : Point
  topRight : Point
  bottomRight : Point
  bottomLeft : Point
deriving DecidableEq, Repr, Inhabited

namespace Corners

/-- The rectangle with one corner in the origin. -/
def rectangle (width height : Binary64) : Corners where
  topLeft := ⟨0, 0⟩
  topRight := ⟨width, 0⟩
  bottomRight := ⟨width, height⟩
  bottomLeft := ⟨0, height⟩

def scale (corners : Corners) (factor : Point) : Corners where
  topLeft := corners.topLeft.scale factor
  topRight := corners.topRight.scale factor
  bottomRight := corners.bottomRight.scale factor
  bottomLeft := corners.bottomLeft.scale factor

/-- The mean length of the top and the bottom edge. -/
def width (corners : Corners) : Binary64 :=
  (corners.topLeft.distance corners.topRight +
    corners.bottomLeft.distance corners.bottomRight) / 2

/-- The mean length of the right and the left edge. -/
def height (corners : Corners) : Binary64 :=
  (corners.topRight.distance corners.bottomRight +
    corners.topLeft.distance corners.bottomLeft) / 2

def center (corners : Corners) : Point :=
  .average [corners.topLeft, corners.topRight, corners.bottomRight, corners.bottomLeft]

end Corners

/-- Where a program lies. -/
structure Placement where
  corners : Corners
  center : Point
deriving DecidableEq, Repr, Inhabited

/-- The placement whose center is the mean of its corners. -/
def Placement.ofCorners (corners : Corners) : Placement := { corners, center := corners.center }

/-- The size of the surface that placements are scaled to. -/
structure Viewport where
  width : Binary64 := 1280
  height : Binary64 := 720
deriving DecidableEq, Repr, Inhabited

def Viewport.toPoint (viewport : Viewport) : Point := ⟨viewport.width, viewport.height⟩

end Blackboard
