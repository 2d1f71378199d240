import Turnery.Geometry.Affine

/-!
# Polylines

A polyline is the list of its points. A closed one repeats its first point at the end.
-/

namespace Turnery

/-- A chain of straight segments. -/
structure Polyline (α : Type) where
  points : List (Point α)
  deriving DecidableEq, Repr

namespace Polyline

variable {α : Type}

/-- The polyline that returns to its first point. -/
def closed (points : List (Point α)) : Polyline α :=
  ⟨points ++ points.head?.toList⟩

def isEmpty (line : Polyline α) : Bool :=
  line.points.isEmpty

def isFinite [Scalar α] (line : Polyline α) : Bool :=
  line.points.all Point.isFinite

def map [Add α] [Mul α] [One α] (m : Affine α) (line : Polyline α) : Polyline α :=
  ⟨line.points.map m.apply⟩

/-- The sum of distances; the sum of none is the negative zero, the neutral element of addition. -/
def total (distances : List Float) : Float :=
  distances.foldl (· + ·) (-0.0)

def length (line : Polyline Float) : Float :=
  total (List.zipWith Point.distance line.points line.points.tail)

end Polyline

end Turnery
