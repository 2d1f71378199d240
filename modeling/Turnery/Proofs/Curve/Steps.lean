import Mathlib.Analysis.SpecialFunctions.Complex.Arg
import Turnery.Curve.Tessellation

/-!
# Exact scalars and equal steps

Where nothing is rounded, the scalars are an ordered field. Such are the reals: over them the
functions that the geometry needs are those they are named for, and the tolerances are the numbers
that the doubles stand for.

The parameters of a curve go over its sweep in equal steps. Over exact scalars, and if counts are
what they count, the fractions of the way lie between zero and one, and the first and the last
parameter are the ends of the sweep.
-/

/-- The scalars of an ordered field, in which nothing is rounded. The class stands outside of the
namespace, where `Field` is a field of a record. -/
class ExactScalar (α : Type) extends Field α, LinearOrder α, IsStrictOrderedRing α, Turnery.Scalar
    α where
  knotTolerance_pos : 0 < knotTolerance

namespace Turnery

noncomputable instance : Scalar ℝ where
  isFinite _ := true
  ofNat := Nat.cast
  sqrt := Real.sqrt
  cos := Real.cos
  sin := Real.sin
  atan2 y x := Complex.arg ⟨x, y⟩
  radians degrees := degrees * (Real.pi / 180)
  tau := 2 * Real.pi
  turnTolerance := 1 / 10 ^ 9
  knotTolerance := 1 / 2 ^ 52

noncomputable instance : ExactScalar ℝ where
  knotTolerance_pos := by
    change (0 : ℝ) < 1 / 2 ^ 52
    positivity

end Turnery

namespace Turnery.Tessellation

variable {α : Type}

section Parameters

variable [Add α] [Mul α] [Div α] [Scalar α]

theorem getElem?_parameters (tess : Tessellation) (start sweep : α) {count i : ℕ} (hi : i < count) :
    (tess.parameters start sweep count)[i]? = some (start + sweep * tess.fraction i) := by
  rw [parameters, List.getElem?_map, List.getElem?_range hi, Option.map_some]

theorem getLast?_parameters (tess : Tessellation) (start sweep : α) (count : ℕ) :
    (tess.parameters start sweep (count + 1)).getLast? =
      some (start + sweep * tess.fraction count) := by
  rw [parameters, List.range_succ, List.map_append]
  exact List.getLast?_concat

end Parameters

section Exact

variable [ExactScalar α] {tess : Tessellation} (hcount : ∀ n : ℕ, (Scalar.ofNat n : α) = n)

include hcount

theorem fraction_zero : (tess.fraction 0 : α) = 0 := by
  rw [fraction, hcount, Nat.cast_zero, zero_div]

theorem fraction_segments : (tess.fraction tess.segments : α) = 1 := by
  have hpos : (0 : α) < tess.segments := Nat.cast_pos.2 tess.segments_pos
  rw [fraction, hcount, div_self hpos.ne']

theorem fraction_mem {i : ℕ} (hi : i ≤ tess.segments) :
    (0 : α) ≤ tess.fraction i ∧ (tess.fraction i : α) ≤ 1 := by
  have hpos : (0 : α) < tess.segments := Nat.cast_pos.2 tess.segments_pos
  rw [fraction, hcount, hcount, div_le_one hpos]
  exact ⟨div_nonneg (Nat.cast_nonneg i) hpos.le, Nat.cast_le.2 hi⟩

end Exact

end Turnery.Tessellation
