/-!
# Scalars

Coordinates are doubles when the program runs and elements of a ring or of the reals when its
geometry is reasoned about. The arithmetic and the comparisons are taken from the usual operator
classes; `Scalar` adds what those do not offer.
-/

namespace Turnery

/-- The functions and constants that the geometry needs besides arithmetic and comparison. -/
class Scalar (α : Type) where
  isFinite : α → Bool
  ofNat : Nat → α
  sqrt : α → α
  cos : α → α
  sin : α → α
  /-- The angle of the vector with the given ordinate and abscissa. -/
  atan2 : α → α → α
  /-- Degrees as radians. -/
  radians : α → α
  /-- A full turn in radians. -/
  tau : α
  /-- How far a sweep may be from a full turn and still count as one. -/
  turnTolerance : α
  /-- The width from which on a knot span counts as one. -/
  knotTolerance : α

/-- Half a turn in radians, as a double. -/
def halfTurn : Float := 3.14159265358979323846

/-- The cosine. Where the angle is not finite it is no number; the logic knows nothing of
`Float.cos` itself. -/
def cosine (x : Float) : Float :=
  if x.isFinite then x.cos else 0 / 0

def sine (x : Float) : Float :=
  if x.isFinite then x.sin else 0 / 0

instance : Scalar Float where
  isFinite := Float.isFinite
  ofNat := Float.ofNat
  sqrt := Float.sqrt
  cos := cosine
  sin := sine
  atan2 := Float.atan2
  radians x := x * (halfTurn / 180)
  tau := 6.28318530717958647692
  turnTolerance := 1e-9
  knotTolerance := 2.220446049250313e-16

/-- The value lies strictly between the tolerance and its negative. -/
def isNegligible {α : Type} [Neg α] [LT α] [DecidableLT α] (tolerance x : α) : Bool :=
  decide (-tolerance < x) && decide (x < tolerance)

/-- The smaller of two values. A value that differs from itself gives way, and of equal values the
second is taken. -/
def smaller {α : Type} [LT α] [DecidableLT α] [BEq α] (a b : α) : α :=
  if b == b then (if a < b then a else b) else a

/-- The larger of two values, under the rules of `smaller`. -/
def larger {α : Type} [LT α] [DecidableLT α] [BEq α] (a b : α) : α :=
  if b == b then (if b < a then a else b) else a

end Turnery
