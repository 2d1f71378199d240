import Turnery.Geometry.Scalar

/-!
# Points

A point of the drawing plane.
-/

namespace Turnery

structure Point (α : Type) where
  x : α
  y : α
  deriving DecidableEq, Repr

namespace Point

variable {α : Type}

def origin [Zero α] : Point α := ⟨0, 0⟩

def isFinite [Scalar α] (p : Point α) : Bool :=
  Scalar.isFinite p.x && Scalar.isFinite p.y

/-- The distance between two points. -/
def distance [Add α] [Sub α] [Mul α] [Scalar α] (p q : Point α) : α :=
  let dx := p.x - q.x
  let dy := p.y - q.y
  Scalar.sqrt (dx * dx + dy * dy)

/-- The point with both coordinates multiplied by a factor. -/
def scale [Mul α] (factor : α) (p : Point α) : Point α :=
  ⟨p.x * factor, p.y * factor⟩

theorem isFinite_iff {p : Point Float} :
    p.isFinite = true ↔ p.x.isFinite = true ∧ p.y.isFinite = true :=
  Bool.and_eq_true_iff

end Point

end Turnery
