import Turnery.Geometry.Point

/-!
# Affine maps

A placement of the plane is a matrix of three rows applied to `(x, y, 1)`. The products are carried
out in full, bottom row included, since with infinite entries the terms that a shortcut would leave
out are not zero.
-/

namespace Turnery

/-- A row of a matrix, or a column to multiply it with. -/
structure Triple (α : Type) where
  x : α
  y : α
  w : α
  deriving DecidableEq, Repr

/-- The product of a row and a column, summed from left to right. -/
def Triple.dot {α : Type} [Add α] [Mul α] (row column : Triple α) : α :=
  row.x * column.x + row.y * column.y + row.w * column.w

/-- An affine map of the plane as a matrix of three rows. -/
structure Affine (α : Type) where
  top : Triple α
  middle : Triple α
  bottom : Triple α
  deriving DecidableEq, Repr

namespace Affine

variable {α : Type}

/-- The map that moves nothing. -/
def identity [Zero α] [One α] : Affine α where
  top := ⟨1, 0, 0⟩
  middle := ⟨0, 1, 0⟩
  bottom := ⟨0, 0, 1⟩

def displacement [Zero α] [One α] (dx dy : α) : Affine α where
  top := ⟨1, 0, dx⟩
  middle := ⟨0, 1, dy⟩
  bottom := ⟨0, 0, 1⟩

/-- A scaling along the two axes. -/
def scaling [Zero α] [One α] (sx sy : α) : Affine α where
  top := ⟨sx, 0, 0⟩
  middle := ⟨0, sy, 0⟩
  bottom := ⟨0, 0, 1⟩

/-- A counter-clockwise rotation by an angle in degrees. -/
def rotation [Neg α] [Zero α] [One α] [Scalar α] (degrees : α) : Affine α :=
  let angle := Scalar.radians degrees
  let s := Scalar.sin angle
  let c := Scalar.cos angle
  ⟨⟨c, -s, 0⟩, ⟨s, c, 0⟩, ⟨0, 0, 1⟩⟩

/-- The first, second and third column of the matrix. -/
def columns (m : Affine α) : Triple α × Triple α × Triple α :=
  (⟨m.top.x, m.middle.x, m.bottom.x⟩, ⟨m.top.y, m.middle.y, m.bottom.y⟩,
    ⟨m.top.w, m.middle.w, m.bottom.w⟩)

/-- The map that applies `inner` first and `outer` to its result. -/
def comp [Add α] [Mul α] (outer inner : Affine α) : Affine α :=
  let (first, second, third) := inner.columns
  let row (r : Triple α) : Triple α := ⟨r.dot first, r.dot second, r.dot third⟩
  ⟨row outer.top, row outer.middle, row outer.bottom⟩

def apply [Add α] [Mul α] [One α] (m : Affine α) (p : Point α) : Point α :=
  ⟨m.top.dot ⟨p.x, p.y, 1⟩, m.middle.dot ⟨p.x, p.y, 1⟩⟩

/-- Every entry equals the entry of the identity. -/
def isIdentity [BEq α] [Zero α] [One α] (m : Affine α) : Bool :=
  let same (r s : Triple α) : Bool := r.x == s.x && r.y == s.y && r.w == s.w
  same m.top ⟨1, 0, 0⟩ && same m.middle ⟨0, 1, 0⟩ && same m.bottom ⟨0, 0, 1⟩

/-- The map of an inserted block: scale, then rotate, then move to the position. -/
def insertion [Add α] [Mul α] [Neg α] [Zero α] [One α] [Scalar α] (position : Point α)
    (scaleX scaleY degrees : α) : Affine α :=
  ((displacement position.x position.y).comp (rotation degrees)).comp (scaling scaleX scaleY)

end Affine

end Turnery
