import Mathlib.Algebra.BigOperators.Fin
import Mathlib.Algebra.Order.Field.Basic
import Mathlib.Data.List.GetD
import Mathlib.Tactic.FieldSimp
import Mathlib.Tactic.Ring
import Turnery.Curve.Spline
import Turnery.Proofs.Curve.Steps

/-!
# Basis functions of a b-spline

The curve of a spline is the sum of its control points, each weighted by its basis function. A basis
function of degree zero is one on a span of the knots, and one of a higher degree blends two
neighbours of the degree below. Summing the corners of a triangle against the basis functions gives
the same for every level of the triangle: `sum_basis_corner`. The top corner, of level zero in the
basis functions, is thus the point of the curve.
-/

namespace Turnery.Spline

variable {α : Type}

def knot [Zero α] (s : Spline α) (i : ℕ) : α :=
  s.knots.getD i 0

/-- What `domain?` asks of the numbers and the order of the knots. -/
structure IsConsistent [LE α] (s : Spline α) : Prop where
  degree_lt : s.degree < s.control.length
  length_knots : s.knots.length = s.control.length + s.degree + 1
  sorted : s.knots.Pairwise (· ≤ ·)

/-- The parameter lies in a span: a span has its left end but not its right one, and only the last
span of the domain has both. -/
def Covers [Zero α] [LE α] [LT α] (s : Spline α) (t : α) (i : ℕ) : Prop :=
  (t = s.knot s.control.length → i + 1 = s.control.length) ∧
    (t ≠ s.knot s.control.length → s.knot i ≤ t ∧ t < s.knot (i + 1))

section

variable [ExactScalar α]

instance (s : Spline α) (t : α) (i : ℕ) : Decidable (s.Covers t i) :=
  inferInstanceAs (Decidable (_ ∧ _))

/-- How far a parameter is from the left end of a number of spans, as a part of their width. -/
def rise (s : Spline α) (t : α) (spans i : ℕ) : α :=
  (t - s.knot i) / (s.knot (i + spans) - s.knot i)

/-- How far it is from their right end. -/
def fall (s : Spline α) (t : α) (spans i : ℕ) : α :=
  (s.knot (i + spans) - t) / (s.knot (i + spans) - s.knot i)

/-- The basis function of a degree at a position. Spans without width count for nothing, for a
quotient by zero is zero. -/
def basis (s : Spline α) (t : α) : ℕ → ℕ → α
  | 0, i => if s.Covers t i then 1 else 0
  | q + 1, i => s.rise t (q + 1) i * s.basis t q i + s.fall t (q + 1) (i + 1) * s.basis t q (i + 1)

/-- The point of the curve: the control points weighted by their basis functions. -/
def weightedPoint (s : Spline α) (t : α) : Point α :=
  ⟨∑ i : Fin s.control.length, s.basis t s.degree i * s.control[i].x,
    ∑ i : Fin s.control.length, s.basis t s.degree i * s.control[i].y⟩

/-- The corners of the triangle over the control points: each blends two corners of the level
below. -/
def corner (s : Spline α) (t : α) : ℕ → ℕ → Point α
  | 0, i => s.control.getD i .origin
  | r + 1, i => blend (s.rise t (s.degree - r) i) (s.corner t r (i - 1)) (s.corner t r i)

/-- A parameter of the domain and the span that it lies in, which is not empty. -/
structure InSpan (s : Spline α) (t : α) (k : ℕ) : Prop extends s.IsConsistent where
  degree_le : s.degree ≤ k
  lt_length : k < s.control.length
  knot_le : s.knot k ≤ t
  le_knot : t ≤ s.knot (k + 1)
  knot_lt : s.knot k < s.knot (k + 1)
  covers_iff : ∀ i, i + 1 < s.knots.length → (s.Covers t i ↔ i = k)

variable {s : Spline α} {t : α} {k : ℕ}

theorem IsConsistent.knot_mono (h : s.IsConsistent) {i j : ℕ} (hij : i ≤ j)
    (hj : j < s.knots.length) :
    s.knot i ≤ s.knot j := by
  have hi : i < s.knots.length := Nat.lt_of_le_of_lt hij hj
  rw [knot, knot, List.getD_eq_getElem _ _ hi, List.getD_eq_getElem _ _ hj]
  rcases Nat.eq_or_lt_of_le hij with rfl | hlt
  · exact le_rfl
  · exact List.pairwise_iff_getElem.1 h.sorted i j hi hj hlt

namespace InSpan

theorem basis_zero (h : s.InSpan t k) {i : ℕ} (hi : i + 1 < s.knots.length) :
    s.basis t 0 i = if i = k then 1 else 0 := by
  rw [basis]
  exact if_congr (h.covers_iff i hi) rfl rfl

/-- A basis function vanishes where its spans are not the one of the parameter. -/
theorem basis_eq_zero (h : s.InSpan t k) {q i : ℕ} (hi : i + q + 1 < s.knots.length)
    (hout : k < i ∨ i + q < k) :
    s.basis t q i = 0 := by
  induction q generalizing i with
  | zero =>
    rw [h.basis_zero hi]
    exact if_neg (by omega)
  | succ q ih =>
    rw [basis, ih (by omega) (by omega), ih (by omega) (by omega), mul_zero, mul_zero, add_zero]

/-- The ends of spans around that of the parameter are different. -/
theorem knot_sub_ne_zero (h : s.InSpan t k) {spans i : ℕ} (hlow : i ≤ k) (hhigh : k + 1 ≤ i + spans)
    (hi : i + spans < s.knots.length) : s.knot (i + spans) - s.knot i ≠ 0 := by
  refine sub_ne_zero.2 (ne_of_gt ?_)
  calc s.knot i ≤ s.knot k := h.knot_mono hlow (by omega)
    _ < s.knot (k + 1) := h.knot_lt
    _ ≤ s.knot (i + spans) := h.knot_mono hhigh hi

theorem fall_eq (h : s.InSpan t k) {spans i : ℕ} (hlow : i ≤ k) (hhigh : k + 1 ≤ i + spans)
    (hi : i + spans < s.knots.length) : s.fall t spans i = 1 - s.rise t spans i := by
  have hwidth := h.knot_sub_ne_zero hlow hhigh hi
  rw [fall, rise, eq_sub_iff_add_eq, ← add_div, sub_add_sub_cancel, div_self hwidth]

/-- Lowering the degree of the basis functions blends neighbouring weights. -/
theorem sum_basis_succ (h : s.InSpan t k) {q : ℕ} (hq : q < s.degree) {d d' : ℕ → α}
    (hblend : ∀ i, d' i = (1 - s.rise t (q + 1) i) * d (i - 1) + s.rise t (q + 1) i * d i) :
    ∑ i ∈ Finset.range s.control.length, s.basis t (q + 1) i * d i =
      ∑ i ∈ Finset.range s.control.length, s.basis t q i * d' i := by
  have hlength := h.length_knots
  have hdegree := h.degree_le
  have hk := h.lt_length
  -- Summed over the neighbours on the right, the falling parts are those of the functions
  -- themselves.
  have hshift : ∑ i ∈ Finset.range s.control.length,
      s.fall t (q + 1) (i + 1) * s.basis t q (i + 1) * d i =
      ∑ i ∈ Finset.range s.control.length, s.fall t (q + 1) i * s.basis t q i * d (i - 1) := by
    have hfirst : s.basis t q 0 = 0 := h.basis_eq_zero (by omega) (by omega)
    have hlast : s.basis t q s.control.length = 0 := h.basis_eq_zero (by omega) (by omega)
    have hboth :=
      Finset.sum_range_succ' (fun i => s.fall t (q + 1) i * s.basis t q i * d (i - 1))
        s.control.length
    rw [Finset.sum_range_succ, hfirst, hlast] at hboth
    simpa using hboth.symm
  calc ∑ i ∈ Finset.range s.control.length, s.basis t (q + 1) i * d i
      = ∑ i ∈ Finset.range s.control.length, s.rise t (q + 1) i * s.basis t q i * d i +
          ∑ i ∈ Finset.range s.control.length,
              s.fall t (q + 1) (i + 1) * s.basis t q (i + 1) * d i := by
        rw [← Finset.sum_add_distrib]
        exact Finset.sum_congr rfl fun i _ => by rw [basis, add_mul]
    _ = ∑ i ∈ Finset.range s.control.length, (s.rise t (q + 1) i * s.basis t q i * d i +
          s.fall t (q + 1) i * s.basis t q i * d (i - 1)) := by rw [hshift, Finset.sum_add_distrib]
    _ = ∑ i ∈ Finset.range s.control.length, s.basis t q i * d' i := by
        refine Finset.sum_congr rfl fun i hi => ?_
        have hi := Finset.mem_range.1 hi
        by_cases hin : i ≤ k ∧ k ≤ i + q
        · rw [h.fall_eq hin.1 (by omega) (by omega), hblend]
          ring
        · rw [h.basis_eq_zero (by omega) (by omega)]
          ring

/-- The corners of every level give the same sum. -/
theorem sum_basis_corner (h : s.InSpan t k) {r : ℕ} (hr : r ≤ s.degree) (coordinate : Point α → α)
    (hblend : ∀ w p q, coordinate (blend w p q) = (1 - w) * coordinate p + w * coordinate q) :
    ∑ i ∈ Finset.range s.control.length, s.basis t s.degree i * coordinate (s.corner t 0 i) =
      ∑ i ∈ Finset.range s.control.length,
        s.basis t (s.degree - r) i * coordinate (s.corner t r i) := by
  induction r with
  | zero => rfl
  | succ r ih =>
    obtain ⟨q, hq⟩ : ∃ q, s.degree = q + 1 + r := ⟨s.degree - r - 1, by omega⟩
    have hupper : s.degree - r = q + 1 := by omega
    have hlower : s.degree - (r + 1) = q := by omega
    rw [ih (by omega), hupper, hlower]
    refine h.sum_basis_succ (by omega) fun i => ?_
    rw [corner, hblend, hupper]

theorem sum_basis_eq_corner (h : s.InSpan t k) (coordinate : Point α → α)
    (hblend : ∀ w p q, coordinate (blend w p q) = (1 - w) * coordinate p + w * coordinate q) :
    ∑ i : Fin s.control.length, s.basis t s.degree i * coordinate s.control[i] =
      coordinate (s.corner t s.degree k) := by
  have hlength := h.length_knots
  calc ∑ i : Fin s.control.length, s.basis t s.degree i * coordinate s.control[i]
      = ∑ i ∈ Finset.range s.control.length,
          s.basis t s.degree i * coordinate (s.corner t 0 i) := by
        rw [← Fin.sum_univ_eq_sum_range
          (fun i => s.basis t s.degree i * coordinate (s.corner t 0 i))]
        refine Finset.sum_congr rfl fun i _ => ?_
        rw [corner, List.getD_eq_getElem _ _ i.isLt]
        rfl
    _ = ∑ i ∈ Finset.range s.control.length,
        s.basis t 0 i * coordinate (s.corner t s.degree i) := by
        rw [h.sum_basis_corner le_rfl coordinate hblend, Nat.sub_self]
    _ = ∑ i ∈ Finset.range s.control.length, if i = k then coordinate (s.corner t s.degree i)
        else 0 := by
        refine Finset.sum_congr rfl fun i hi => ?_
        have hi := Finset.mem_range.1 hi
        rw [h.basis_zero (by omega), ite_mul, one_mul, zero_mul]
    _ = coordinate (s.corner t s.degree k) := by
        rw [Finset.sum_ite_eq', if_pos (Finset.mem_range.2 h.lt_length)]

/-- The top corner of the triangle is the point of the curve. -/
theorem weightedPoint_eq_corner (h : s.InSpan t k) : s.weightedPoint t = s.corner t s.degree k := by
  have hx := h.sum_basis_eq_corner Point.x fun _ _ _ => rfl
  have hy := h.sum_basis_eq_corner Point.y fun _ _ _ => rfl
  rw [weightedPoint, hx, hy]

end InSpan

end

end Turnery.Spline
