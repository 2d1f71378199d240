import Mathlib.Tactic.Ring
import Turnery.Geometry.Polyline

/-!
# Affine maps in exact arithmetic

Over a commutative ring the matrices act as the maps they are named for, and products act as
compositions. The only matrix of a product that has to be one of an affine map is the inner one: the
bottom row of the outer one is never read.
-/

namespace Turnery

variable {α : Type} [CommRing α]

namespace Point

/-- The point moved by a vector. -/
def translate (p v : Point α) : Point α :=
  ⟨v.x + p.x, v.y + p.y⟩

/-- The point scaled along the two axes. -/
def stretch (scaleX scaleY : α) (p : Point α) : Point α :=
  ⟨scaleX * p.x, scaleY * p.y⟩

/-- The point turned counter-clockwise about the origin by an angle in degrees. -/
def rotate [Scalar α] (degrees : α) (p : Point α) : Point α :=
  let s := Scalar.sin (Scalar.radians degrees)
  let c := Scalar.cos (Scalar.radians degrees)
  ⟨c * p.x - s * p.y, s * p.x + c * p.y⟩

end Point

namespace Affine

/-- The bottom row is that of an affine map. -/
def IsAffine (m : Affine α) : Prop :=
  m.bottom = ⟨0, 0, 1⟩

theorem isAffine_displacement (dx dy : α) : (displacement dx dy).IsAffine := rfl

theorem isAffine_scaling (sx sy : α) : (scaling sx sy).IsAffine := rfl

theorem isAffine_rotation [Scalar α] (degrees : α) : (rotation degrees).IsAffine := rfl

theorem IsAffine.comp {outer inner : Affine α} (houter : outer.IsAffine) (hinner : inner.IsAffine) :
    (outer.comp inner).IsAffine := by
  have hbottom : outer.bottom = ⟨0, 0, 1⟩ := houter
  have hbottom' : inner.bottom = ⟨0, 0, 1⟩ := hinner
  simp [IsAffine, Affine.comp, columns, Triple.dot, hbottom, hbottom']

/-- A product applies its inner map first. -/
theorem apply_comp (outer : Affine α) {inner : Affine α} (h : inner.IsAffine) (p : Point α) :
    (outer.comp inner).apply p = outer.apply (inner.apply p) := by
  have hbottom : inner.bottom = ⟨0, 0, 1⟩ := h
  simp only [apply, comp, columns, Triple.dot, hbottom, Point.mk.injEq]
  constructor <;> ring

theorem apply_identity (p : Point α) : identity.apply p = p := by
  simp [identity, apply, Triple.dot]

theorem apply_displacement (v p : Point α) : (displacement v.x v.y).apply p = p.translate v := by
  simp only [displacement, apply, Triple.dot, Point.translate, Point.mk.injEq]
  constructor <;> ring

theorem apply_scaling (sx sy : α) (p : Point α) : (scaling sx sy).apply p = p.stretch sx sy := by
  simp [scaling, apply, Triple.dot, Point.stretch]

theorem apply_rotation [Scalar α] (degrees : α) (p : Point α) :
    (rotation degrees).apply p = p.rotate degrees := by
  simp only [rotation, apply, Triple.dot, Point.rotate, Point.mk.injEq]
  constructor <;> ring

theorem isAffine_insertion [Scalar α] (position : Point α) (scaleX scaleY degrees : α) :
    (insertion position scaleX scaleY degrees).IsAffine :=
  ((isAffine_displacement _ _).comp (isAffine_rotation _)).comp (isAffine_scaling _ _)

/-- An insertion scales, then rotates, then moves to its position. -/
theorem apply_insertion [Scalar α] (position : Point α) (scaleX scaleY degrees : α) (p : Point α) :
    (insertion position scaleX scaleY degrees).apply p =
      ((p.stretch scaleX scaleY).rotate degrees).translate position := by
  rw [insertion, apply_comp _ (isAffine_scaling _ _), apply_comp _ (isAffine_rotation _),
    apply_scaling, apply_rotation, apply_displacement]

/-- Only the identity passes for it. -/
theorem eq_identity_of_isIdentity [DecidableEq α] {m : Affine α} (h : m.isIdentity = true) :
    m = identity := by
  obtain ⟨⟨a, b, c⟩, ⟨d, e, f⟩, ⟨g, i, j⟩⟩ := m
  simp only [isIdentity, Bool.and_eq_true, beq_iff_eq] at h
  obtain ⟨⟨⟨⟨rfl, rfl⟩, rfl⟩, ⟨⟨rfl, rfl⟩, rfl⟩⟩, ⟨⟨rfl, rfl⟩, rfl⟩⟩ := h
  rfl

end Affine

namespace Polyline

theorem map_identity (line : Polyline α) : line.map .identity = line := by
  have hid : (Affine.identity : Affine α).apply = id := funext Affine.apply_identity
  rw [map, hid, List.map_id]

theorem map_comp (outer : Affine α) {inner : Affine α} (h : inner.IsAffine) (line : Polyline α) :
    line.map (outer.comp inner) = (line.map inner).map outer := by
  simp [map, Affine.apply_comp outer h]

end Polyline

end Turnery
