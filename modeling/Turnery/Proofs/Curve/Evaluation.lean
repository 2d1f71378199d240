import Mathlib.Tactic.NormNum
import Turnery.Proofs.Curve.Basis
import Turnery.Proofs.Curve.Lookup

/-!
# Evaluation of a b-spline

A curve is evaluated on lists: the control points around the span of the parameter, and on each
level the blends of the neighbours on the level below. Every look-up succeeds, the lists hold the
corners of the triangle over the control points, and where the span is not too narrow no weight is
left out. So the evaluation gives the point of the curve: `point?_eq_weightedPoint`.
-/

namespace Turnery.Spline

variable {α : Type}

theorem getElem?_knots [Zero α] {s : Spline α} {i : ℕ} (hi : i < s.knots.length) :
    s.knots[i]? = some (s.knot i) := by
  rw [knot, List.getD_eq_getElem _ _ hi, List.getElem?_eq_getElem hi]

variable [ExactScalar α] {s : Spline α} {t : α} {k : ℕ}

/-- A curve that has a domain is consistent, and the domain goes from one of its knots to a later
one. -/
theorem of_domain? {first last : α} (h : s.domain? = some (first, last)) :
    s.IsConsistent ∧ first = s.knot s.degree ∧ last = s.knot s.control.length ∧ first < last := by
  have hdomain := isDomain_of_domain? h
  have hdegree := hdomain.degree_lt
  have hlength := hdomain.length_knots
  have hfirst := hdomain.knot_first
  have hlast := hdomain.knot_last
  rw [getElem?_knots (by omega)] at hfirst hlast
  obtain rfl := Option.some.inj hfirst
  obtain rfl := Option.some.inj hlast
  have hsorted := List.isChain_iff_pairwise.1 (hdomain.ordered.imp fun _ _ => not_lt.1)
  exact ⟨⟨hdegree, hlength, hsorted⟩, rfl, rfl, hdomain.first_lt_last⟩

/-- The span of a parameter of the domain has both its ends among the knots. -/
theorem IsConsistent.lt_of_covers (h : s.IsConsistent) (hlast : t ≤ s.knot s.control.length)
    (hcovers : s.Covers t k) :
    k + 1 < s.knots.length := by
  have hlength := h.length_knots
  by_cases hend : t = s.knot s.control.length
  · have := hcovers.1 hend
    omega
  · obtain ⟨hlow, hhigh⟩ := hcovers.2 hend
    by_contra hge
    have hright : s.knot (k + 1) = 0 := List.getD_eq_default _ _ (by omega)
    rcases Nat.lt_or_ge k s.knots.length with hk | hk
    · exact absurd (lt_of_le_of_ne hlast hend) (not_lt.2 ((h.knot_mono (by omega) hk).trans hlow))
    · have hleft : s.knot k = 0 := List.getD_eq_default _ _ hk
      rw [hleft] at hlow
      rw [hright] at hhigh
      exact absurd hlow (not_le.2 hhigh)

/-- A span of the domain that has a width is the only one that its parameters lie in. -/
theorem IsConsistent.inSpan (h : s.IsConsistent) (hfirst : s.knot s.degree ≤ t)
    (hlast : t ≤ s.knot s.control.length) (hcovers : s.Covers t k)
    (hwidth : s.knot k < s.knot (k + 1)) : s.InSpan t k := by
  have hk := h.lt_of_covers hlast hcovers
  have hlength := h.length_knots
  have hdegree := h.degree_lt
  by_cases hend : t = s.knot s.control.length
  · have hlast := hcovers.1 hend
    refine { h with
      degree_le := by omega, lt_length := by omega, knot_le := ?_, le_knot := ?_, knot_lt := hwidth
      covers_iff := fun i hi => ?_ }
    · rw [hend]
      exact h.knot_mono (by omega) (by omega)
    · rw [hend, hlast]
    · constructor
      · intro hi
        have := hi.1 hend
        omega
      · rintro rfl
        exact hcovers
  · obtain ⟨hlow, hhigh⟩ := hcovers.2 hend
    have hbefore : t < s.knot s.control.length := lt_of_le_of_ne hlast hend
    refine { h with
      degree_le := ?_, lt_length := ?_, knot_le := hlow, le_knot := hhigh.le, knot_lt := hwidth
      covers_iff := fun i hi => ?_ }
    · by_contra hlt
      exact absurd (hfirst.trans_lt hhigh) (not_lt.2 (h.knot_mono (by omega) (by omega)))
    · by_contra hge
      exact absurd (hlow.trans_lt hbefore) (not_lt.2 (h.knot_mono (by omega) (by omega)))
    · constructor
      · intro hi'
        obtain ⟨hlow', hhigh'⟩ := hi'.2 hend
        -- Of two spans the one on the left ends before the other begins.
        by_contra hne
        rcases Nat.lt_or_gt_of_ne hne with hlt | hgt
        · exact absurd (hlow.trans_lt hhigh') (not_lt.2 (h.knot_mono hlt (by omega)))
        · exact absurd (hlow'.trans_lt hhigh) (not_lt.2 (h.knot_mono hgt (by omega)))
      · rintro rfl
        exact hcovers

/-- The search ends at the first span whose right end is beyond the parameter. -/
theorem spanFrom?_eq_some {remaining start : ℕ} (hstart : start ≤ k) (hk : k ≤ start + remaining)
    (hlength : start + remaining < s.knots.length)
    (hpassed : ∀ j, start ≤ j → j < k → s.knot (j + 1) ≤ t)
    (hends : k < start + remaining → t < s.knot (k + 1)) :
    spanFrom? s.knots t remaining start = some k := by
  induction remaining generalizing start with
  | zero =>
    have heq : start = k := by omega
    rw [heq]
    rfl
  | succ remaining ih =>
    rw [spanFrom?, getElem?_knots (by omega)]
    show (if s.knot (start + 1) ≤ t then _ else _) = _
    rcases Nat.eq_or_lt_of_le hstart with rfl | hlt
    · rw [if_neg (not_le.2 (hends (by omega)))]
    · rw [if_pos (hpassed start le_rfl hlt)]
      exact ih (by omega) (by omega) (by omega) (fun j hj => hpassed j (by omega))
        (fun hlt => hends (by omega))

namespace InSpan

theorem span?_eq (h : s.InSpan t k) (hcovers : s.Covers t k) : s.span? t = some k := by
  have hlength := h.length_knots
  have hdegree := h.degree_le
  have hk := h.lt_length
  have hlast : position? s.control.length 1 = some (s.control.length - 1) :=
    position?_of_le (by omega)
  have hspans : position? (s.control.length - 1) s.degree =
      some (s.control.length - 1 - s.degree) :=
    position?_of_le (by omega)
  simp only [span?, hlast, hspans, Option.bind_eq_bind, Option.bind_some]
  refine spanFrom?_eq_some hdegree (by omega) (by omega) (fun j hj hlt => ?_) fun hlt => ?_
  · exact (h.knot_mono hlt (by omega)).trans h.knot_le
  · by_cases hend : t = s.knot s.control.length
    · have := hcovers.1 hend
      omega
    · exact (hcovers.2 hend).2

/-- The control points of a span are the corners on the ground. -/
theorem support?_eq (h : s.InSpan t k) :
    s.support? k = some ((List.range' (k - s.degree) (s.degree + 1)).map (s.corner t 0)) := by
  have hdegree := h.degree_le
  have hk := h.lt_length
  rw [support?, mapM_eq_some_map (g := fun j => s.corner t 0 (k - s.degree + j))]
  · rw [List.range'_eq_map_range, List.map_map]
    rfl
  · intro j hj
    have hj := List.mem_range.1 hj
    have hposition : position? (j + k) s.degree = some (k - s.degree + j) := by
      rw [position?_of_le (by omega)]
      exact congrArg some (by omega)
    simp only [hposition, Option.bind_eq_bind, Option.bind_some]
    rw [corner, List.getD_eq_getElem _ _ (by omega), List.getElem?_eq_getElem]

/-- No weight is left out over a span that is not too narrow. -/
theorem weight?_eq (h : s.InSpan t k) (hwide : Scalar.knotTolerance ≤ s.knot (k + 1) - s.knot k)
    {r j : ℕ} (hr : r + 1 ≤ j) (hj : j ≤ s.degree) :
    s.weight? t k (r + 1) j = some (s.rise t (s.degree - r) (k - s.degree + j)) := by
  have hlength := h.length_knots
  have hdegree := h.degree_le
  have hk := h.lt_length
  have hposition : position? (j + k) s.degree = some (k - s.degree + j) := by
    rw [position?_of_le (by omega)]
    exact congrArg some (by omega)
  have hupper : position? (k - s.degree + j + s.degree + 1) (r + 1) =
      some (k - s.degree + j + (s.degree - r)) := by
    rw [position?_of_le (by omega)]
    exact congrArg some (by omega)
  have hright : s.knots[k - s.degree + j + (s.degree - r)]? =
      some (s.knot (k - s.degree + j + (s.degree - r))) :=
    getElem?_knots (by omega)
  have hleft : s.knots[k - s.degree + j]? = some (s.knot (k - s.degree + j)) :=
    getElem?_knots (by omega)
  -- The span of the weight holds that of the parameter.
  have hbelow : s.knot (k - s.degree + j) ≤ s.knot k := h.knot_mono (by omega) (by omega)
  have habove : s.knot (k + 1) ≤ s.knot (k - s.degree + j + (s.degree - r)) :=
    h.knot_mono (by omega) (by omega)
  have hnegligible : isNegligible Scalar.knotTolerance
      (s.knot (k - s.degree + j + (s.degree - r)) - s.knot (k - s.degree + j)) = false := by
    rw [isNegligible, Bool.and_eq_false_iff]
    exact .inr (decide_eq_false (not_lt.2 (hwide.trans (sub_le_sub habove hbelow))))
  simp only [weight?, hposition, hupper, hright, hleft, hnegligible, Option.bind_eq_bind,
    Option.bind_some]
  rfl

/-- From the corners of one level come those of the next. -/
theorem blendLevel?_eq (h : s.InSpan t k) (hwide : Scalar.knotTolerance ≤ s.knot (k + 1) - s.knot k)
    {r m j : ℕ} (hr : r ≤ j) (hj : j + m ≤ s.degree) :
    s.blendLevel? t k (r + 1) (j + 1)
      ((List.range' (k - s.degree + j) (m + 1)).map (s.corner t r)) =
      some ((List.range' (k - s.degree + j + 1) m).map (s.corner t (r + 1))) := by
  induction m generalizing j with
  | zero => rfl
  | succ m ih =>
    have hweight := h.weight?_eq hwide (show r + 1 ≤ j + 1 by omega) (by omega)
    have hrest := ih (show r ≤ j + 1 by omega) (by omega)
    rw [← Nat.add_assoc (k - s.degree)] at hweight hrest
    rw [List.range'_succ, List.map_cons] at hrest
    rw [List.range'_succ, List.map_cons, List.range'_succ, List.map_cons, blendLevel?,
      hweight, hrest]
    rfl

/-- Level by level the corners go up to the top. -/
theorem blendLevels?_eq (h : s.InSpan t k)
    (hwide : Scalar.knotTolerance ≤ s.knot (k + 1) - s.knot k) {left r : ℕ}
    (hr : r + left = s.degree) :
    s.blendLevels? t k left (r + 1) ((List.range' (k - left) (left + 1)).map (s.corner t r)) =
      some [s.corner t s.degree k] := by
  have hdegree := h.degree_le
  induction left generalizing r with
  | zero =>
    rw [← hr]
    rfl
  | succ left ih =>
    have hlevel := h.blendLevel?_eq hwide (le_refl r) (show r + (left + 1) ≤ s.degree by omega)
    have hground : k - s.degree + r = k - (left + 1) := by omega
    have hnext : k - (left + 1) + 1 = k - left := by omega
    rw [hground, hnext] at hlevel
    rw [blendLevels?, hlevel]
    exact ih (by omega)

theorem point?_eq_corner (h : s.InSpan t k) (hcovers : s.Covers t k)
    (hwide : Scalar.knotTolerance ≤ s.knot (k + 1) - s.knot k) :
    s.point? t = some (s.corner t s.degree k) := by
  have htop := h.blendLevels?_eq hwide (Nat.zero_add s.degree)
  simp only [point?, h.span?_eq hcovers, h.support?_eq, Option.bind_eq_bind, Option.bind_some]
  rw [htop]
  rfl

end InSpan

/-- A curve that has a domain is evaluated to the sum of its control points, each weighted by its
basis function, at every parameter of the domain that lies in a span which is not too narrow. -/
theorem point?_eq_weightedPoint {first last : α} (hdomain : s.domain? = some (first, last))
    (hfirst : first ≤ t) (hlast : t ≤ last) (hcovers : s.Covers t k)
    (hwide : Scalar.knotTolerance ≤ s.knot (k + 1) - s.knot k) :
    s.point? t = some (s.weightedPoint t) := by
  obtain ⟨hconsistent, rfl, rfl, -⟩ := of_domain? hdomain
  have hwidth : s.knot k < s.knot (k + 1) :=
    sub_pos.1 (ExactScalar.knotTolerance_pos.trans_le hwide)
  have hspan := hconsistent.inSpan hfirst hlast hcovers hwidth
  rw [hspan.point?_eq_corner hcovers hwide, hspan.weightedPoint_eq_corner]

/-- The last span has its right end, although the knots go on behind the domain. -/
theorem point?_eq_weightedPoint_right_end :
    let s : Spline ℝ := ⟨2, [0, 0, 1, 2, 5, 6, 8], [⟨0, 0⟩, ⟨1, 2⟩, ⟨3, 2⟩, ⟨4, 0⟩]⟩
    (s.domain? = some (1, 5) ∧ (1 : ℝ) ≤ 5 ∧ (5 : ℝ) ≤ 5 ∧ s.Covers 5 3 ∧
      Scalar.knotTolerance ≤ s.knot 4 - s.knot 3) ∧
      s.point? 5 = some (s.weightedPoint 5) := by
  intro s
  have hdomain : s.domain? = some (1, 5) := by
    norm_num [s, domain?, decreases]
  have hcovers : s.Covers 5 3 := by
    norm_num [s, Covers, knot]
  have hwide : Scalar.knotTolerance ≤ s.knot 4 - s.knot 3 := by
    norm_num [s, knot, Scalar.knotTolerance]
  exact ⟨⟨hdomain, by norm_num, le_rfl, hcovers, hwide⟩,
    point?_eq_weightedPoint hdomain (by norm_num) le_rfl hcovers hwide⟩

end Turnery.Spline
