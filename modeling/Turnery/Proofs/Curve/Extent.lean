import Turnery.Proofs.Curve.Lookup
import Turnery.Proofs.Curve.Sweep
import Turnery.Proofs.Number.Arithmetic

/-!
# How far a curve in doubles goes

In doubles a point of a curve may be none although the knots and the control points are finite: the
width of a span can be beyond the doubles, and a weight is a quotient. Here is what keeps a curve
among the doubles, `IsModerate`. Between knots that are ordered a weight lies between zero and one,
up to the rounding of the last parameter. That is at most the length of the domain times the spacing
of doubles at one, and no width that counts is below that spacing. So a weight is not beyond the
knots by more than a constant factor, and neither are the points of each level beyond those of the
level below.

A power of two is a double, so rounding does not lead beyond it. What is known to lie within a power
of two, `IsOfSize`, can thus be followed through sums, differences, products and quotients without a
look at how each of them is rounded, as long as the power itself is within the doubles.
-/

namespace Turnery.Number

/-- The double is finite and not beyond a power of two. -/
structure IsOfSize (k : ℕ) (x : Float) : Prop where
  isFinite : x.isFinite = true
  abs_le : |toRat x| ≤ 2 ^ k

variable {x y : Float} {k l : ℕ}

theorem IsNearest.isOfSize {q : ℚ} (h : IsNearest x q) (hk : k < 1024) (hq : |q| ≤ 2 ^ k) :
    IsOfSize k x := by
  rw [← zpow_natCast] at hq
  obtain ⟨hfinite, hle⟩ := h.isFinite_of_abs_le (by omega) (by exact_mod_cast hk) hq
  exact ⟨hfinite, by rwa [zpow_natCast] at hle⟩

namespace IsOfSize

theorem mono (h : IsOfSize k x) (hkl : k ≤ l) : IsOfSize l x :=
  ⟨h.isFinite, h.abs_le.trans (pow_le_pow_right₀ one_le_two hkl)⟩

theorem add (hx : IsOfSize k x) (hy : IsOfSize k y) (hk : k + 1 < 1024) :
    IsOfSize (k + 1) (x + y) := by
  refine (isNearest_add hx.isFinite hy.isFinite).isOfSize hk ?_
  calc |toRat x + toRat y| ≤ |toRat x| + |toRat y| := abs_add_le _ _
    _ ≤ 2 ^ k + 2 ^ k := add_le_add hx.abs_le hy.abs_le
    _ = 2 ^ (k + 1) := by rw [pow_succ, mul_two]

theorem sub (hx : IsOfSize k x) (hy : IsOfSize k y) (hk : k + 1 < 1024) :
    IsOfSize (k + 1) (x - y) := by
  refine (isNearest_sub hx.isFinite hy.isFinite).isOfSize hk ?_
  calc |toRat x - toRat y| ≤ |toRat x| + |toRat y| := abs_sub _ _
    _ ≤ 2 ^ k + 2 ^ k := add_le_add hx.abs_le hy.abs_le
    _ = 2 ^ (k + 1) := by rw [pow_succ, mul_two]

theorem mul (hx : IsOfSize k x) (hy : IsOfSize l y) (hkl : k + l < 1024) :
    IsOfSize (k + l) (x * y) := by
  refine (isNearest_mul hx.isFinite hy.isFinite).isOfSize hkl ?_
  rw [abs_mul, pow_add]
  exact mul_le_mul hx.abs_le hy.abs_le (abs_nonneg _) (by positivity)

end IsOfSize

theorem nearest_le_two_mul {q : ℚ} (hq : 0 ≤ q) : nearest q ≤ 2 * q := by
  have hzero := abs_nearest_sub_le q isDouble_zero
  rw [zero_sub, abs_neg, abs_of_nonneg hq] at hzero
  linarith [le_abs_self (nearest q - q)]

theorem le_two_mul_nearest {q : ℚ} (hq : 0 ≤ q) (h : 2 ^ (-1073 : ℤ) ≤ nearest q) :
    q ≤ 2 * nearest q := by
  have hlarge : 2 ^ (-1074 : ℤ) ≤ |q| := by
    have hpower : (2 : ℚ) ^ (-1073 : ℤ) = 2 * 2 ^ (-1074 : ℤ) := by
      rw [← zpow_one_add₀ two_ne_zero]
      rfl
    rw [abs_of_nonneg hq]
    linarith [nearest_le_two_mul hq]
  have hclose := abs_nearest_sub_lt hlarge
  rw [abs_of_nonneg hq] at hclose
  linarith [neg_abs_le (nearest q - q)]

theorem isOfSize_ofNat {n : ℕ} (hk : k < 64) (h : n ≤ 2 ^ k) : IsOfSize k (Float.ofNat n) := by
  have hn : n < 2 ^ 64 := h.trans_lt (Nat.pow_lt_pow_right Nat.one_lt_two hk)
  obtain ⟨hfinite, hvalue⟩ := toRat_ofNat hn
  refine ⟨hfinite, ?_⟩
  have hpower : nearest n ≤ 2 ^ (k : ℤ) :=
    (isDouble_two_zpow (by omega)).nearest_le (by exact_mod_cast h)
  rw [hvalue, abs_of_nonneg (isDouble_zero.le_nearest n.cast_nonneg)]
  exact_mod_cast hpower

theorem isOfSize_zero : IsOfSize k 0 :=
  (isOfSize_ofNat (by norm_num) (Nat.zero_le _) : IsOfSize 0 (Float.ofNat 0)).mono (Nat.zero_le k)

theorem isOfSize_one : IsOfSize k 1 :=
  (isOfSize_ofNat (by norm_num) le_rfl : IsOfSize 0 (Float.ofNat 1)).mono (Nat.zero_le k)

end Turnery.Number

namespace Turnery

open Number

namespace Tessellation

variable {tess : Tessellation} {start finish : Float}

theorem isOfSize_fraction (hsegments : tess.segments < 2 ^ 64) {i : ℕ} (hi : i ≤ tess.segments) :
    IsOfSize 0 (tess.fraction i) := by
  refine ⟨(toRat_fraction hsegments hi).1, ?_⟩
  rw [abs_of_nonneg (toRat_fraction_nonneg hsegments hi), pow_zero]
  exact toRat_fraction_le_one hsegments hi

/-- The parameters do not lie before the start, and beyond the end only as far as the difference of
both is rounded. -/
theorem parameter_between (hsegments : tess.segments < 2 ^ 64) (hstart : start.isFinite = true)
    (hfinish : finish.isFinite = true) (hsweep : (finish - start).isFinite = true)
    (hle : toRat start ≤ toRat finish) {i : ℕ} (hi : i ≤ tess.segments)
    (hfinite : (start + (finish - start) * tess.fraction i).isFinite = true) :
    toRat start ≤ toRat (start + (finish - start) * tess.fraction i) ∧
      toRat (start + (finish - start) * tess.fraction i) ≤
        toRat finish + (toRat finish - toRat start) / 2 ^ 52 := by
  have hvalue := (isNearest_sub hfinish hstart).toRat_eq hsweep
  have hnonneg : 0 ≤ toRat (finish - start) := by
    rw [hvalue]
    exact isDouble_zero.le_nearest (sub_nonneg.2 hle)
  rw [(isNearest_parameter hsegments hstart hsweep hi).toRat_eq hfinite]
  constructor
  · have hpart := isDouble_zero.le_nearest (mul_nonneg hnonneg (toRat_fraction_nonneg hsegments hi))
    exact (isDouble_toRat start).le_nearest (le_add_of_nonneg_right hpart)
  · have hpart : nearest (toRat (finish - start) * toRat (tess.fraction i)) ≤
        nearest (toRat finish - toRat start) := by
      rw [← hvalue]
      exact (isDouble_toRat _).nearest_le
        (mul_le_of_le_one_right hnonneg (toRat_fraction_le_one hsegments hi))
    have hlast := abs_nearest_add_nearest_sub_le (isDouble_toRat start) (isDouble_toRat finish)
    rw [abs_of_nonneg (sub_nonneg.2 hle)] at hlast
    have hmono := nearest_mono (add_le_add_right hpart (toRat start))
    linarith
      [le_abs_self (nearest (toRat start + nearest (toRat finish - toRat start)) - toRat finish)]

end Tessellation

namespace Spline

section Weights

variable {t left right : Float} {a : ℕ}

theorem ofFloat_knotTolerance :
    Binary64.ofFloat Scalar.knotTolerance = .finite false (2 ^ 52) (-104) := by
  decide +kernel

theorem toRat_knotTolerance :
    (Scalar.knotTolerance : Float).isFinite = true ∧ toRat Scalar.knotTolerance = 1 / 2 ^ 52 := by
  refine ⟨Binary64.isFinite_iff.2 ⟨_, _, _, ofFloat_knotTolerance⟩, ?_⟩
  rw [toRat_of_ofFloat ofFloat_knotTolerance, Binary64.magnitude, withSign]
  norm_num

theorem toRat_neg_knotTolerance :
    (-(Scalar.knotTolerance : Float)).isFinite = true ∧
      toRat (-Scalar.knotTolerance) = -(1 / 2 ^ 52) := by
  have hread := Binary64.ofFloat_neg ofFloat_knotTolerance
  refine ⟨Binary64.isFinite_iff.2 ⟨_, _, _, hread⟩, ?_⟩
  rw [toRat_of_ofFloat hread, Binary64.magnitude, withSign]
  norm_num

/-- A width that counts is not below the tolerance. -/
theorem knotTolerance_le {width : Float} (hfinite : width.isFinite = true)
    (hnonneg : 0 ≤ toRat width) (hwide : isNegligible Scalar.knotTolerance width = false) :
    1 / 2 ^ 52 ≤ toRat width := by
  rw [isNegligible, Bool.and_eq_false_iff, decide_eq_false_iff_not, decide_eq_false_iff_not,
    lt_iff_toRat_lt toRat_neg_knotTolerance.1 hfinite,
    lt_iff_toRat_lt hfinite toRat_knotTolerance.1,
    toRat_neg_knotTolerance.2, toRat_knotTolerance.2] at hwide
  rcases hwide with hbelow | hnot
  · have : (0 : ℚ) < 1 / 2 ^ 52 := by norm_num
    linarith
  · exact not_lt.1 hnot

/-- The way from the left knot in terms of a width that counts. -/
theorem le_scaled_width {gap width rise : ℚ} (hleast : 1 / 2 ^ 52 ≤ width) (hgap : gap ≤ 2 * width)
    (hrise : rise ≤ gap + 2 ^ (a + 1) / 2 ^ 52) : rise ≤ 2 ^ (a + 2) * width := by
  have hpos : 0 < width := lt_of_lt_of_le (by norm_num) hleast
  have hslack : (2 : ℚ) ^ (a + 1) / 2 ^ 52 ≤ 2 ^ (a + 1) * width := by
    rw [div_eq_mul_one_div]
    exact mul_le_mul_of_nonneg_left hleast (by positivity)
  have hscale : 2 * width ≤ 2 ^ (a + 1) * width := by
    refine mul_le_mul_of_nonneg_right ?_ hpos.le
    rw [pow_succ]
    linarith [one_le_pow₀ (one_le_two (α := ℚ)) (n := a)]
  calc rise ≤ 2 ^ (a + 1) * width + 2 ^ (a + 1) * width := by linarith
    _ = 2 ^ (a + 2) * width := by ring

/-- A width that counts is rounded by less than half of it. -/
theorem width_le (hleft : left.isFinite = true) (hright : right.isFinite = true)
    (hfinite : (right - left).isFinite = true) (horder : toRat left ≤ toRat right)
    (hwide : isNegligible Scalar.knotTolerance (right - left) = false) :
    1 / 2 ^ 52 ≤ toRat (right - left) ∧ toRat right - toRat left ≤ 2 * toRat (right - left) := by
  have hgap : 0 ≤ toRat right - toRat left := sub_nonneg.2 horder
  have hvalue := (isNearest_sub hright hleft).toRat_eq hfinite
  have hleast : 1 / 2 ^ 52 ≤ toRat (right - left) := by
    refine knotTolerance_le hfinite ?_ hwide
    rw [hvalue]
    exact isDouble_zero.le_nearest hgap
  refine ⟨hleast, ?_⟩
  rw [hvalue] at hleast ⊢
  refine le_two_mul_nearest hgap (le_trans ?_ hleast)
  rw [one_div, ← zpow_natCast, ← zpow_neg]
  exact zpow_le_zpow_right₀ one_le_two (by norm_num)

/-- A weight is not beyond the knots by more than a constant factor. -/
theorem isOfSize_weightBetween (ha : a + 3 < 1024) (hleft : IsOfSize a left)
    (hright : IsOfSize a right) (ht : t.isFinite = true) (horder : toRat left ≤ toRat right)
    (hbefore : toRat left ≤ toRat t) (hbehind : toRat t ≤ toRat right + 2 ^ (a + 1) / 2 ^ 52) :
    IsOfSize (a + 3) (weightBetween t left right) := by
  rw [weightBetween]
  split
  · exact isOfSize_zero
  · rename_i hwide
    rw [Bool.not_eq_true] at hwide
    have hwidth := hright.sub hleft (by omega)
    obtain ⟨hleast, hdouble⟩ := width_le hleft.isFinite hright.isFinite hwidth.isFinite horder hwide
    have hpos : 0 < toRat (right - left) := lt_of_lt_of_le (by norm_num) hleast
    have hrise : 0 ≤ toRat t - toRat left := sub_nonneg.2 hbefore
    have hslack : (2 : ℚ) ^ (a + 1) / 2 ^ 52 ≤ 2 ^ (a + 1) :=
      div_le_self (by positivity) (by norm_num)
    have hnumerator : IsOfSize (a + 2) (t - left) := by
      refine (isNearest_sub ht hleft.isFinite).isOfSize (by omega) ?_
      rw [abs_of_nonneg hrise]
      calc toRat t - toRat left ≤ (2 ^ a + 2 ^ a) + 2 ^ (a + 1) := by
            linarith [(abs_le.1 hleft.abs_le).1, (abs_le.1 hright.abs_le).2]
        _ = 2 ^ (a + 2) := by ring
    have hvalue := (isNearest_sub ht hleft.isFinite).toRat_eq hnumerator.isFinite
    refine (isNearest_div hnumerator.isFinite hwidth.isFinite hpos.ne').isOfSize ha ?_
    rw [hvalue, abs_of_nonneg (div_nonneg (isDouble_zero.le_nearest hrise) hpos.le),
      div_le_iff₀ hpos]
    calc nearest (toRat t - toRat left) ≤ 2 * (toRat t - toRat left) := nearest_le_two_mul hrise
      _ ≤ 2 * (2 ^ (a + 2) * toRat (right - left)) :=
        mul_le_mul_of_nonneg_left (le_scaled_width hleast hdouble (by linarith)) zero_le_two
      _ = 2 ^ (a + 3) * toRat (right - left) := by ring

end Weights

/-- Both coordinates are within a power of two. -/
def PointOfSize (k : ℕ) (p : Point Float) : Prop :=
  IsOfSize k p.x ∧ IsOfSize k p.y

theorem PointOfSize.isFinite {k : ℕ} {p : Point Float} (h : PointOfSize k p) : p.isFinite = true :=
  Bool.and_eq_true_iff.2 ⟨h.1.isFinite, h.2.isFinite⟩

theorem isOfSize_blend {weight x y : Float} {k l : ℕ} (hweight : IsOfSize k weight)
    (hx : IsOfSize l x) (hy : IsOfSize l y) (hkl : l + (k + 2) < 1024) :
    IsOfSize (l + (k + 2)) ((1 - weight) * x + weight * y) := by
  have hrest : IsOfSize (k + 1) (1 - weight) := isOfSize_one.sub hweight (by omega)
  have hleft : IsOfSize (k + 1 + l) ((1 - weight) * x) := hrest.mul hx (by omega)
  have hright : IsOfSize (k + 1 + l) (weight * y) := (hweight.mul hy (by omega)).mono (by omega)
  exact (hleft.add hright (by omega)).mono (by omega)

theorem PointOfSize.blend {weight : Float} {p q : Point Float} {k l : ℕ} (hp : PointOfSize l p)
    (hq : PointOfSize l q) (hweight : IsOfSize k weight) (hkl : l + (k + 2) < 1024) :
    PointOfSize (l + (k + 2)) (blend weight p q) :=
  ⟨isOfSize_blend hweight hp.1 hq.1 hkl, isOfSize_blend hweight hp.2 hq.2 hkl⟩

/-- The knots are within a power of two and so are the control points, with room for what each level
of the evaluation can add. -/
structure IsModerate (s : Spline Float) (a m : ℕ) : Prop where
  knots : ∀ x ∈ s.knots, IsOfSize a x
  control : ∀ p ∈ s.control, PointOfSize m p
  room : m + s.degree * (a + 5) < 1024

namespace IsModerate

variable {s : Spline Float} {a m : ℕ} {first last : Float}

theorem isOfSize_knot (h : s.IsModerate a m) {i : ℕ} {x : Float} (hx : s.knots[i]? = some x) :
    IsOfSize a x :=
  h.knots x (List.mem_of_getElem? hx)

/-- Knots that do not decrease are in the order of their numbers. -/
theorem knot_le (h : s.IsModerate a m) (hdomain : s.IsDomain first last) {i j : ℕ} {x y : Float}
    (hij : i ≤ j) (hx : s.knots[i]? = some x) (hy : s.knots[j]? = some y) : toRat x ≤ toRat y := by
  have hsorted : (s.knots.map toRat).Pairwise (· ≤ ·) := by
    rw [← List.isChain_iff_pairwise, List.isChain_map]
    refine hdomain.ordered.imp_of_mem_imp fun x y hx hy hnot => ?_
    rwa [lt_iff_toRat_lt (h.knots y hy).isFinite (h.knots x hx).isFinite, not_lt] at hnot
  obtain ⟨hi, rfl⟩ := List.getElem?_eq_some_iff.1 hx
  obtain ⟨hj, rfl⟩ := List.getElem?_eq_some_iff.1 hy
  rcases Nat.eq_or_lt_of_le hij with rfl | hlt
  · exact le_rfl
  · exact List.pairwise_iff_getElem.1 (List.pairwise_map.1 hsorted) i j hi hj hlt

variable {t : Float} {k : ℕ}

/-- The knots up to a span are not behind its parameter, and those beyond it not far before. -/
theorem knot_le_of_isSpan (h : s.IsModerate a m) (hdomain : s.IsDomain first last)
    (ht : t.isFinite = true) (hfirst : toRat first ≤ toRat t)
    (hlast : toRat t ≤ toRat last + 2 ^ (a + 1) / 2 ^ 52)
    (hspan : IsSpan s.knots t s.degree (s.control.length - 1) k) {i : ℕ} {x : Float}
    (hx : s.knots[i]? = some x) :
    (i ≤ k → toRat x ≤ toRat t) ∧ (k < i → toRat t ≤ toRat x + 2 ^ (a + 1) / 2 ^ 52) := by
  have hdegree := hdomain.degree_lt
  constructor
  · intro hi
    rcases Nat.eq_or_lt_of_le hspan.start_le with heq | hlt
    · exact (h.knot_le hdomain (heq ▸ hi) hx hdomain.knot_first).trans hfirst
    · obtain ⟨y, hy, hle⟩ := hspan.passed k hlt le_rfl
      rw [le_iff_toRat_le (h.isOfSize_knot hy).isFinite ht] at hle
      exact (h.knot_le hdomain hi hx hy).trans hle
  · intro hi
    rcases Nat.eq_or_lt_of_le hspan.le_stop with heq | hlt
    · have hle := h.knot_le hdomain (by omega) hdomain.knot_last hx
      exact hlast.trans (add_le_add_left hle _)
    · obtain ⟨y, hy, hnot⟩ := hspan.ends hlt
      rw [le_iff_toRat_le (h.isOfSize_knot hy).isFinite ht, not_le] at hnot
      exact (hnot.le.trans (h.knot_le hdomain hi hy hx)).trans
        (le_add_of_nonneg_right (by positivity))

/-- A parameter of the domain has a point, which is not far beyond the control points. -/
theorem exists_point? (h : s.IsModerate a m) (hdomain : s.IsDomain first last)
    (ht : t.isFinite = true) (hfirst : toRat first ≤ toRat t)
    (hlast : toRat t ≤ toRat last + 2 ^ (a + 1) / 2 ^ 52) :
    ∃ p, s.point? t = some p ∧ PointOfSize (m + s.degree * (a + 5)) p := by
  have hdegree := hdomain.degree_lt
  have hroom := h.room
  obtain ⟨k, hk, hspan⟩ := hdomain.exists_span? t
  have hstart := hspan.start_le
  have hstop := hspan.le_stop
  have hground : HoldFrom (fun _ => PointOfSize (m + 0 * (a + 5))) 0 (s.neighbours k) := by
    intro i p hp
    rw [Nat.zero_mul, Nat.add_zero]
    exact h.control p (List.mem_of_mem_drop (List.mem_of_mem_take (List.mem_of_getElem? hp)))
  refine Spline.exists_point? (P := fun r _ => PointOfSize (m + r * (a + 5))) hk hstart (by omega)
    hground ?_
  intro r i hr hi
  obtain ⟨lower, upper, left, right, hlower, hupper, hleft, hright, hweight⟩ :=
    hdomain.exists_weight? hstart (by omega) t (Nat.succ_pos r) (Nat.succ_le_succ hr)
      (Nat.succ_le_of_lt hi)
  have hlevel : m + (r + 1) * (a + 5) ≤ m + s.degree * (a + 5) :=
    Nat.add_le_add_left (Nat.mul_le_mul_right _ (by omega)) m
  have hstep : m + (r + 1) * (a + 5) = m + r * (a + 5) + (a + 3 + 2) := by ring
  have hsmall :=
    isOfSize_weightBetween (by omega) (h.isOfSize_knot hleft) (h.isOfSize_knot hright) ht
      (h.knot_le hdomain (by omega) hleft hright)
      ((h.knot_le_of_isSpan hdomain ht hfirst hlast hspan hleft).1 hlower)
      ((h.knot_le_of_isSpan hdomain ht hfirst hlast hspan hright).2 hupper)
  refine ⟨_, hweight, fun p q hp hq => ?_⟩
  rw [hstep]
  exact hp.blend hq hsmall (by omega)

/-- The parameters of a moderate curve are finite, and in its domain but for the rounding of its
length. -/
theorem parameter_mem (h : s.IsModerate a m) (hdomain : s.IsDomain first last) {tess : Tessellation}
    (hsegments : tess.segments < 2 ^ 64)
    (ht : t ∈ tess.parameters first (last - first) (tess.segments + 1)) :
    t.isFinite = true ∧ toRat first ≤ toRat t ∧ toRat t ≤ toRat last + 2 ^ (a + 1) / 2 ^ 52 := by
  have hroom := h.room
  have hscale : a + 5 ≤ s.degree * (a + 5) := Nat.le_mul_of_pos_left _ hdomain.degree_pos
  have hfirst := h.isOfSize_knot hdomain.knot_first
  have hlast := h.isOfSize_knot hdomain.knot_last
  have hsweep := hlast.sub hfirst (by omega)
  have hle := ((lt_iff_toRat_lt hfirst.isFinite hlast.isFinite).1 hdomain.first_lt_last).le
  obtain ⟨i, hi, rfl⟩ := List.mem_map.1 ht
  rw [List.mem_range, Nat.lt_succ_iff] at hi
  have hpart := hsweep.mul (Tessellation.isOfSize_fraction hsegments hi) (by omega)
  have hfinite := ((hfirst.mono (Nat.le_succ a)).add hpart (by omega)).isFinite
  obtain ⟨hbefore, hbehind⟩ :=
    Tessellation.parameter_between hsegments hfirst.isFinite hlast.isFinite hsweep.isFinite hle
      hi hfinite
  have hlength : (toRat last - toRat first) / 2 ^ 52 ≤ 2 ^ (a + 1) / 2 ^ 52 := by
    refine div_le_div_of_nonneg_right ?_ (by positivity)
    rw [pow_succ]
    linarith [(abs_le.1 hfirst.abs_le).1, (abs_le.1 hlast.abs_le).2]
  exact ⟨hfinite, hbefore, hbehind.trans (add_le_add_right hlength _)⟩

/-- All points of a moderate curve are finite. -/
theorem isFinite_curve? (h : s.IsModerate a m) {tess : Tessellation}
    (hsegments : tess.segments < 2 ^ 64) {line : Polyline Float}
    (hline : s.curve? tess = some line) : line.isFinite = true := by
  cases hsome : s.domain? with
  | none =>
    rw [curve?, hsome] at hline
    cases hline
  | some domain =>
    obtain ⟨first, last⟩ := domain
    have hdomain := isDomain_of_domain? hsome
    obtain ⟨points, hpoints, -, heach⟩ :=
        exists_curve? (r := fun _ p => p.isFinite = true) hsome tess fun t ht => by
      obtain ⟨hfinite, hbefore, hbehind⟩ := h.parameter_mem hdomain hsegments ht
      obtain ⟨p, hp, hreach⟩ := h.exists_point? hdomain hfinite hbefore hbehind
      exact ⟨p, hp, hreach.isFinite⟩
    rw [hpoints] at hline
    obtain rfl := Option.some.inj hline
    refine List.all_eq_true.2 fun p hp => ?_
    obtain ⟨j, hj, rfl⟩ := List.mem_iff_getElem.1 hp
    exact heach.get (heach.length_eq ▸ hj) hj

end IsModerate

end Spline

end Turnery
