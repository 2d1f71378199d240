import Turnery.Geometry.Polyline

/-!
# Tessellation of circles, arcs and ellipses

A curve is replaced by points at equal steps of its parameter. The number of steps is the one
setting of a tessellation and is never zero.
-/

namespace Turnery

/-- The number of steps into which a curve is cut. -/
structure Tessellation where
  segments : Nat
  segments_pos : 0 < segments

namespace Tessellation

/-- The tessellation with a given number of steps, at least one. -/
def ofNat (segments : Nat) : Tessellation :=
  ⟨max segments 1, Nat.lt_of_lt_of_le Nat.one_pos (Nat.le_max_right _ _)⟩

/-- The number of steps where none is asked for. -/
def standardSegments : Nat := 48

@[simp] theorem segments_ofNat (segments : Nat) : (ofNat segments).segments = max segments 1 := rfl

variable {α : Type} [Add α] [Mul α] [Div α] [Scalar α]

/-- The point of a circle at an angle in radians. -/
def circlePoint (center : Point α) (radius t : α) : Point α :=
  ⟨center.x + radius * Scalar.cos t, center.y + radius * Scalar.sin t⟩

/-- The fraction of the way after `i` steps. -/
def fraction (tess : Tessellation) (i : Nat) : α :=
  Scalar.ofNat i / Scalar.ofNat tess.segments

/-- A circle, closed by repeating its first point. -/
def circle (tess : Tessellation) (center : Point α) (radius : α) : Polyline α :=
  Polyline.closed ((List.range tess.segments).map fun i =>
    circlePoint center radius (Scalar.tau * Scalar.ofNat i / Scalar.ofNat tess.segments))

/-- The parameters from `start` on over a sweep, after each of the first `count` numbers of
steps. -/
def parameters (tess : Tessellation) (start sweep : α) (count : Nat) : List α :=
  (List.range count).map fun i => start + sweep * tess.fraction i

/-- The angles of the points of an arc, in radians. An end before the start is taken one turn
later. -/
def arcAngles [Sub α] [LT α] [DecidableLT α] (tess : Tessellation) (startDegrees endDegrees : α) :
    List α :=
  let start := Scalar.radians startDegrees
  let finish := Scalar.radians endDegrees
  let finish := if finish < start then finish + Scalar.tau else finish
  tess.parameters start (finish - start) (tess.segments + 1)

/-- A counter-clockwise arc between two angles in degrees. -/
def arc [Sub α] [LT α] [DecidableLT α] (tess : Tessellation) (center : Point α)
    (radius startDegrees endDegrees : α) : Polyline α :=
  ⟨(tess.arcAngles startDegrees endDegrees).map (circlePoint center radius)⟩

/-- The parameters of an ellipse between two given ones: the sweep, with an end not after the start
taken one turn later, and whether it is a full turn. -/
def ellipseSweep [Sub α] [LE α] [DecidableLE α] [Neg α] [LT α] [DecidableLT α] (start finish : α) :
    α × Bool :=
  let finish := if finish ≤ start then finish + Scalar.tau else finish
  let sweep := finish - start
  (sweep, isNegligible Scalar.turnTolerance (sweep - Scalar.tau))

/-- The point of an ellipse at a parameter: `(major cos t, minor sin t)` turned by the angle with
the given sine and cosine. -/
def ellipsePoint [Sub α] (center : Point α) (major minor sinA cosA t : α) : Point α :=
  let lx := major * Scalar.cos t
  let ly := minor * Scalar.sin t
  ⟨center.x + lx * cosA - ly * sinA, center.y + lx * sinA + ly * cosA⟩

/-- An ellipse, or the part of it between two parameters, given by its major axis as a vector from
the center and by the ratio of its axes. A full turn is closed by repeating the first point. -/
def ellipse [Sub α] [Neg α] [LE α] [DecidableLE α] [LT α] [DecidableLT α] (tess : Tessellation)
    (center axis : Point α) (ratio start finish : α) : Polyline α :=
  let major := Scalar.sqrt (axis.x * axis.x + axis.y * axis.y)
  let minor := major * ratio
  let angle := Scalar.atan2 axis.y axis.x
  let point := ellipsePoint center major minor (Scalar.sin angle) (Scalar.cos angle)
  let (sweep, fullTurn) := ellipseSweep start finish
  if fullTurn then Polyline.closed ((tess.parameters start sweep tess.segments).map point)
  else ⟨(tess.parameters start sweep (tess.segments + 1)).map point⟩

end Tessellation

end Turnery
