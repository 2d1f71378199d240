import Turnery.Geometry.Linework

/-!
# Bounds

The smallest upright box around linework.
-/

namespace Turnery

/-- An upright box by two opposite corners. -/
structure Bounds (α : Type) where
  min : Point α
  max : Point α
  deriving DecidableEq, Repr

namespace Bounds

variable {α : Type}

def width [Sub α] (b : Bounds α) : α := b.max.x - b.min.x

def height [Sub α] (b : Bounds α) : α := b.max.y - b.min.y

variable [LT α] [DecidableLT α] [BEq α]

/-- The box enlarged so that it holds one more point. -/
def enlarge (b : Bounds α) (p : Point α) : Bounds α where
  min := ⟨smaller b.min.x p.x, smaller b.min.y p.y⟩
  max := ⟨larger b.max.x p.x, larger b.max.y p.y⟩

def ofPoints : List (Point α) → Option (Bounds α)
  | [] => none
  | p :: ps => some (ps.foldl Bounds.enlarge ⟨p, p⟩)

end Bounds

/-- The box around all points, if there are any. -/
def Linework.bounds {α : Type} [LT α] [DecidableLT α] [BEq α] (work : Linework α) :
    Option (Bounds α) :=
  Bounds.ofPoints work.points

end Turnery
