import Mathlib.Algebra.BigOperators.Fin
import Mathlib.Algebra.Order.BigOperators.Ring.Finset
import Mathlib.Tactic.IntervalCases
import Mathlib.Tactic.NormNum
import Turnery.Proofs.Curve.Evaluation
import Turnery.Proofs.Curve.Steps

/-!
# A b-spline stays among its control points

In exact arithmetic every weight of the evaluation lies between zero and one, for the knots that it
is taken from lie on both sides of the parameter; over a span that is too narrow it is zero. So each
sample of a curve is a mixture of the control points of its span: `exists_curve?_inHull`. Where all
knots at one end of the domain are equal, all weights are zero or all are one, and the curve runs
into the control point at that end.
-/

namespace Turnery

variable {α : Type}

section Mixtures

variable [ExactScalar α] {points : List (Point α)} {p q : Point α}

/-- The point is a convex combination of some points. -/
def IsMixture (points : List (Point α)) (p : Point α) : Prop :=
  ∃ share : Fin points.length → α, (∀ i, 0 ≤ share i) ∧ ∑ i, share i = 1 ∧
    p = ⟨∑ i, share i * points[i].x, ∑ i, share i * points[i].y⟩

/-- Whatever box holds all the points holds the point. -/
def IsWithin (points : List (Point α)) (p : Point α) : Prop :=
  ∀ low high : Point α, (∀ q ∈ points, (low.x ≤ q.x ∧ q.x ≤ high.x) ∧
    (low.y ≤ q.y ∧ q.y ≤ high.y)) →
    (low.x ≤ p.x ∧ p.x ≤ high.x) ∧ (low.y ≤ p.y ∧ p.y ≤ high.y)

theorem isMixture_of_mem (h : p ∈ points) : IsMixture points p := by
  obtain ⟨i, hi, rfl⟩ := List.getElem_of_mem h
  refine ⟨fun j => if j = ⟨i, hi⟩ then 1 else 0, fun j => ?_, ?_, ?_⟩
  · dsimp only
    split
    · exact zero_le_one
    · exact le_rfl
  · rw [Finset.sum_ite_eq', if_pos (Finset.mem_univ _)]
  · simp only [ite_mul, one_mul, zero_mul, Finset.sum_ite_eq', if_pos (Finset.mem_univ _)]
    rfl

/-- A blend of mixtures is a mixture. -/
theorem IsMixture.blend (hp : IsMixture points p) (hq : IsMixture points q) {w : α} (hw : 0 ≤ w)
    (hw' : w ≤ 1) :
    IsMixture points (Spline.blend w p q) := by
  obtain ⟨share, hnonneg, hsum, rfl⟩ := hp
  obtain ⟨share', hnonneg', hsum', rfl⟩ := hq
  refine ⟨fun i => (1 - w) * share i + w * share' i, fun i => ?_, ?_, ?_⟩
  · exact add_nonneg (mul_nonneg (sub_nonneg.2 hw') (hnonneg i)) (mul_nonneg hw (hnonneg' i))
  · rw [Finset.sum_add_distrib, ← Finset.mul_sum, ← Finset.mul_sum, hsum, hsum', mul_one, mul_one,
      sub_add_cancel]
  · simp only [Spline.blend, add_mul, mul_assoc, Finset.sum_add_distrib, ← Finset.mul_sum]

/-- A mean of values is not below their bounds, and not above them. -/
theorem sum_between {n : ℕ} {share value : Fin n → α} (hnonneg : ∀ i, 0 ≤ share i)
    (hsum : ∑ i, share i = 1) {low high : α} (hlow : ∀ i, low ≤ value i)
    (hhigh : ∀ i, value i ≤ high) :
    low ≤ ∑ i, share i * value i ∧ ∑ i, share i * value i ≤ high := by
  constructor
  · calc low = ∑ i, share i * low := by rw [← Finset.sum_mul, hsum, one_mul]
      _ ≤ ∑ i, share i * value i :=
        Finset.sum_le_sum fun i _ => mul_le_mul_of_nonneg_left (hlow i) (hnonneg i)
  · calc ∑ i, share i * value i ≤ ∑ i, share i * high :=
          Finset.sum_le_sum fun i _ => mul_le_mul_of_nonneg_left (hhigh i) (hnonneg i)
      _ = high := by rw [← Finset.sum_mul, hsum, one_mul]

theorem IsMixture.isWithin (h : IsMixture points p) : IsWithin points p := by
  obtain ⟨share, hnonneg, hsum, rfl⟩ := h
  intro low high hbox
  have hmem : ∀ i : Fin points.length, points[i] ∈ points := fun i => List.getElem_mem i.isLt
  exact ⟨sum_between hnonneg hsum (fun i => (hbox _ (hmem i)).1.1) fun i => (hbox _ (hmem i)).1.2,
    sum_between hnonneg hsum (fun i => (hbox _ (hmem i)).2.1) fun i => (hbox _ (hmem i)).2.2⟩

end Mixtures

namespace Spline

variable [ExactScalar α] {s : Spline α} {t left right : α} {k : ℕ}

theorem isNegligible_of_le (h : Scalar.knotTolerance ≤ right - left) :
    isNegligible Scalar.knotTolerance (right - left) = false := by
  rw [isNegligible, Bool.and_eq_false_iff]
  exact .inr (decide_eq_false (not_lt.2 h))

/-- The weight of a parameter between two knots lies between zero and one. -/
theorem weightBetween_mem (hleft : left ≤ t) (hright : t ≤ right) :
    0 ≤ weightBetween t left right ∧ weightBetween t left right ≤ 1 := by
  rw [weightBetween]
  split
  · exact ⟨le_rfl, zero_le_one⟩
  · have hrise : 0 ≤ t - left := sub_nonneg.2 hleft
    have hwidth : t - left ≤ right - left := sub_le_sub_right hright left
    exact ⟨div_nonneg hrise (hrise.trans hwidth), div_le_one_of_le₀ hwidth (hrise.trans hwidth)⟩

theorem weightBetween_left (t right : α) : weightBetween t t right = 0 := by
  rw [weightBetween, sub_self, zero_div, ite_self]

theorem weightBetween_right (h : Scalar.knotTolerance ≤ t - left) : weightBetween t left t = 1 := by
  have hpos : 0 < t - left := ExactScalar.knotTolerance_pos.trans_le h
  rw [weightBetween, isNegligible_of_le h, if_neg Bool.false_ne_true, div_self hpos.ne']

theorem blend_zero (p q : Point α) : blend 0 p q = p := by
  simp only [blend, sub_zero, one_mul, zero_mul, add_zero]

theorem blend_one (p q : Point α) : blend 1 p q = q := by
  simp only [blend, sub_self, zero_mul, one_mul, zero_add]

theorem IsConsistent.fits (h : s.IsConsistent) : s.Fits :=
  ⟨h.degree_lt, h.length_knots⟩

theorem knot_eq {x : α} {i : ℕ} (h : s.knots[i]? = some x) : s.knot i = x := by
  obtain ⟨hi, rfl⟩ := List.getElem?_eq_some_iff.1 h
  exact List.getD_eq_getElem _ _ hi

/-- The span at which the search for a parameter of the domain ends has the parameter. -/
theorem IsConsistent.knot_le_of_isSpan (h : s.IsConsistent) (hfirst : s.knot s.degree ≤ t)
    (hlast : t ≤ s.knot s.control.length)
    (hspan : IsSpan s.knots t s.degree (s.control.length - 1) k) :
    s.knot k ≤ t ∧ t ≤ s.knot (k + 1) := by
  have hdegree := h.degree_lt
  constructor
  · rcases Nat.eq_or_lt_of_le hspan.start_le with heq | hlt
    · rwa [← heq]
    · obtain ⟨x, hx, hle⟩ := hspan.passed k hlt le_rfl
      rwa [knot_eq hx]
  · rcases Nat.eq_or_lt_of_le hspan.le_stop with heq | hlt
    · have hend : k + 1 = s.control.length := by omega
      rwa [hend]
    · obtain ⟨x, hx, hlt⟩ := hspan.ends hlt
      rw [knot_eq hx]
      exact (not_le.1 hlt).le

/-- Every weight is that between two knots, one at or below the span and one above it. -/
theorem IsConsistent.exists_weight? (h : s.IsConsistent) (hdegree : s.degree ≤ k)
    (hk : k < s.control.length) (t : α) {level j : ℕ} (hlevel : 0 < level) (hj : level ≤ j)
    (hj' : j ≤ s.degree) :
    ∃ lower upper, lower ≤ k ∧ k < upper ∧ upper < s.knots.length ∧
      s.weight? t k level j = some (weightBetween t (s.knot lower) (s.knot upper)) := by
  obtain ⟨lower, upper, left, right, hlower, hupper, hleft, hright, hweight⟩ :=
    h.fits.exists_weight? hdegree hk t hlevel hj hj'
  refine ⟨lower, upper, hlower, hupper, (List.getElem?_eq_some_iff.1 hright).1, ?_⟩
  rw [hweight, knot_eq hleft, knot_eq hright]

/-- The point of a parameter lies among the control points of its span. These are consecutive, one
more than the degree, the parameter lies in the span, and no weight is below zero or above one. -/
structure InHull (s : Spline α) (t : α) (k : ℕ) (p : Point α) : Prop where
  span : s.span? t = some k
  knot_le : s.knot k ≤ t
  le_knot : t ≤ s.knot (k + 1)
  weights : ∀ level j, 0 < level → level ≤ j → j ≤ s.degree → ∃ w,
    s.weight? t k level j = some w ∧ 0 ≤ w ∧ w ≤ 1
  consecutive : s.neighbours k <:+: s.control
  length : (s.neighbours k).length = s.degree + 1
  mixture : IsMixture (s.neighbours k) p
  within : IsWithin (s.neighbours k) p

theorem IsConsistent.exists_inHull (h : s.IsConsistent) (hfirst : s.knot s.degree ≤ t)
    (hlast : t ≤ s.knot s.control.length) : ∃ p, s.point? t = some p ∧ ∃ k, s.InHull t k p := by
  have hdegree := h.degree_lt
  obtain ⟨k, hk, hspan⟩ := h.fits.exists_span? t
  obtain ⟨hbelow, habove⟩ := h.knot_le_of_isSpan hfirst hlast hspan
  have hstart := hspan.start_le
  have hstop : k < s.control.length := by
    have := hspan.le_stop
    omega
  have hweights : ∀ level j, 0 < level → level ≤ j → j ≤ s.degree →
      ∃ w, s.weight? t k level j = some w ∧ 0 ≤ w ∧ w ≤ 1 := by
    intro level j hlevel hj hj'
    obtain ⟨lower, upper, hlower, hupper, hlength, hweight⟩ :=
      h.exists_weight? hstart hstop t hlevel hj hj'
    refine ⟨_, hweight, weightBetween_mem ?_ ?_⟩
    · exact (h.knot_mono hlower (by omega)).trans hbelow
    · exact habove.trans (h.knot_mono hupper hlength)
  obtain ⟨p, hp, hmixture⟩ :=
    exists_point? (P := fun _ _ => IsMixture (s.neighbours k)) hk hstart hstop
      (fun i q hq => isMixture_of_mem (List.mem_of_getElem? hq)) fun r i hr hi => by
        obtain ⟨w, hw, hnonneg, hle⟩ := hweights (r + 1) (i + 1) (by omega) (by omega) (by omega)
        exact ⟨w, hw, fun q q' hq hq' => hq.blend hq' hnonneg hle⟩
  refine ⟨p, hp, k, ⟨hk, hbelow, habove, hweights, ?_, length_neighbours hstart hstop, hmixture,
    hmixture.isWithin⟩⟩
  exact (List.take_prefix _ _).isInfix.trans (List.drop_suffix _ _).isInfix

/-- All knots up to the start of the domain are equal, and the next one is larger. -/
structure IsClampedLeft (s : Spline α) : Prop where
  eq : ∀ i ≤ s.degree, s.knot i = s.knot s.degree
  lt : s.knot s.degree < s.knot (s.degree + 1)

/-- All knots from the end of the domain on are equal, and the one before is smaller by a width that
counts. -/
structure IsClampedRight (s : Spline α) : Prop where
  eq : ∀ i < s.knots.length, s.control.length ≤ i → s.knot i = s.knot s.control.length
  le : Scalar.knotTolerance ≤ s.knot s.control.length - s.knot (s.control.length - 1)

/-- Where all weights are zero, the point is the first control point of the span. -/
theorem point?_of_weights_zero (hspan : s.span? t = some k) (hdegree : s.degree ≤ k)
    (hk : k < s.control.length)
    (hzero : ∀ level j, 0 < level → level ≤ j → j ≤ s.degree → s.weight? t k level j = some 0) :
    s.point? t = s.control[k - s.degree]? := by
  obtain ⟨p, hp, hfirst⟩ :=
    exists_point? (P := fun r j q => (s.neighbours k)[j - r]? = some q) hspan hdegree hk
      (fun i q hq => by simpa using hq) fun r i hr hi => by
        refine ⟨0, hzero (r + 1) (i + 1) (by omega) (by omega) (by omega), fun q q' hq _ => ?_⟩
        rwa [blend_zero, Nat.add_sub_add_right]
  rw [Nat.sub_self, getElem?_neighbours (Nat.zero_le _), Nat.add_zero] at hfirst
  rw [hp, hfirst]

/-- Where all weights are one, the point is the last control point of the span. -/
theorem point?_of_weights_one (hspan : s.span? t = some k) (hdegree : s.degree ≤ k)
    (hk : k < s.control.length)
    (hone : ∀ level j, 0 < level → level ≤ j → j ≤ s.degree → s.weight? t k level j = some 1) :
    s.point? t = s.control[k]? := by
  obtain ⟨p, hp, hlast⟩ :=
    exists_point? (P := fun _ j q => (s.neighbours k)[j]? = some q) hspan hdegree hk
      (fun i q hq => by simpa using hq) fun r i hr hi => by
        refine ⟨1, hone (r + 1) (i + 1) (by omega) (by omega) (by omega), fun q q' _ hq' => ?_⟩
        rwa [blend_one]
  rw [getElem?_neighbours le_rfl, Nat.sub_add_cancel hdegree] at hlast
  rw [hp, hlast]

theorem IsConsistent.point?_first (h : s.IsConsistent) (hclamped : s.IsClampedLeft) :
    s.point? (s.knot s.degree) = s.control.head? := by
  have hdegree := h.degree_lt
  obtain ⟨k, hk, hspan⟩ := h.fits.exists_span? (s.knot s.degree)
  have hstart : k = s.degree := by
    rcases Nat.eq_or_lt_of_le hspan.start_le with heq | hlt
    · exact heq.symm
    · obtain ⟨x, hx, hle⟩ := hspan.passed (s.degree + 1) (by omega) hlt
      rw [← knot_eq hx] at hle
      exact absurd hclamped.lt (not_lt.2 hle)
  subst hstart
  rw [point?_of_weights_zero hk le_rfl hdegree, Nat.sub_self, List.head?_eq_getElem?]
  intro level j hlevel hj hj'
  obtain ⟨lower, upper, hlower, -, -, hweight⟩ :=
    h.exists_weight? le_rfl hdegree (s.knot s.degree) hlevel hj hj'
  rw [hweight, hclamped.eq lower hlower, weightBetween_left]

theorem IsConsistent.point?_last (h : s.IsConsistent) (hclamped : s.IsClampedRight) :
    s.point? (s.knot s.control.length) = s.control.getLast? := by
  have hdegree := h.degree_lt
  have hlength := h.length_knots
  obtain ⟨k, hk, hspan⟩ := h.fits.exists_span? (s.knot s.control.length)
  have hstop : k = s.control.length - 1 := by
    rcases Nat.eq_or_lt_of_le hspan.le_stop with heq | hlt
    · exact heq
    · obtain ⟨x, hx, hgt⟩ := hspan.ends hlt
      rw [← knot_eq hx] at hgt
      exact absurd (h.knot_mono (by omega) (by omega)) hgt
  have hstart := hspan.start_le
  subst hstop
  rw [point?_of_weights_one hk hstart (by omega), List.getLast?_eq_getElem?]
  intro level j hlevel hj hj'
  obtain ⟨lower, upper, hlower, hupper, hbound, hweight⟩ :=
    h.exists_weight? hstart (by omega) (s.knot s.control.length) hlevel hj hj'
  rw [hweight, hclamped.eq upper hbound (by omega), weightBetween_right]
  exact hclamped.le.trans (sub_le_sub_left (h.knot_mono hlower (by omega)) _)

/-- The parameters of a curve lie in its domain. -/
theorem mem_domain_of_mem_parameters (hcount : ∀ n : ℕ, (Scalar.ofNat n : α) = n)
    {tess : Tessellation} {first last : α} (hdomain : first ≤ last)
    (ht : t ∈ tess.parameters first (last - first) (tess.segments + 1)) : first ≤ t ∧ t ≤ last := by
  obtain ⟨i, hi, rfl⟩ := List.mem_map.1 ht
  obtain ⟨hnonneg, hle⟩ :=
    Tessellation.fraction_mem hcount (Nat.lt_succ_iff.1 (List.mem_range.1 hi))
  have hwidth : 0 ≤ last - first := sub_nonneg.2 hdomain
  constructor
  · exact le_add_of_nonneg_right (mul_nonneg hwidth hnonneg)
  · calc first + (last - first) * tess.fraction i ≤ first + (last - first) :=
          add_le_add_right (mul_le_of_le_one_right hwidth hle) first
      _ = last := add_sub_cancel first last

theorem exists_getElem?_of_forall₂ {β γ : Type} {r : β → γ → Prop} {l : List β} {l' : List γ}
    (h : List.Forall₂ r l l') {i : ℕ} {b : β} (hb : l[i]? = some b) :
    ∃ c, l'[i]? = some c ∧ r b c := by
  obtain ⟨hi, rfl⟩ := List.getElem?_eq_some_iff.1 hb
  have hi' : i < l'.length := h.length_eq ▸ hi
  exact ⟨l'[i], List.getElem?_eq_getElem hi', by simpa using h.get hi hi'⟩

/-- A curve with a domain has as many samples as segments and one more, each among the control
points of its span; and it starts at the first control point and ends at the last one where its
knots are clamped. -/
theorem exists_curve?_inHull (hcount : ∀ n : ℕ, (Scalar.ofNat n : α) = n) {first last : α}
    (hdomain : s.domain? = some (first, last)) (tess : Tessellation) :
    ∃ points, s.curve? tess = some ⟨points⟩ ∧ points.length = tess.segments + 1 ∧
      List.Forall₂ (fun t p => s.point? t = some p ∧ ∃ k, s.InHull t k p)
        (tess.parameters first (last - first) (tess.segments + 1)) points ∧
      (s.IsClampedLeft → points.head? = s.control.head?) ∧
      (s.IsClampedRight → points.getLast? = s.control.getLast?) := by
  obtain ⟨hconsistent, rfl, rfl, hlt⟩ := of_domain? hdomain
  obtain ⟨points, hcurve, hlength, heach⟩ := exists_curve? hdomain tess
    (r := fun t p => s.point? t = some p ∧ ∃ k, s.InHull t k p) fun t ht => by
      obtain ⟨hlow, hhigh⟩ := mem_domain_of_mem_parameters hcount hlt.le ht
      obtain ⟨p, hp, hhull⟩ := hconsistent.exists_inHull hlow hhigh
      exact ⟨p, hp, hp, hhull⟩
  refine ⟨points, hcurve, hlength, heach, fun hclamped => ?_, fun hclamped => ?_⟩
  · obtain ⟨p, hp, hpoint, -⟩ :=
      exists_getElem?_of_forall₂ heach (Tessellation.getElem?_parameters tess _ _ (Nat.succ_pos _))
    rw [Tessellation.fraction_zero hcount, mul_zero, add_zero, hconsistent.point?_first hclamped]
      at hpoint
    rw [List.head?_eq_getElem?, hp, hpoint]
  · obtain ⟨p, hp, hpoint, -⟩ :=
      exists_getElem?_of_forall₂ heach
        (Tessellation.getElem?_parameters tess _ _ (Nat.lt_succ_self _))
    rw [Tessellation.fraction_segments hcount, mul_one, add_sub_cancel,
      hconsistent.point?_last hclamped] at hpoint
    rw [List.getLast?_eq_getElem?, hlength, Nat.add_sub_cancel, hp, hpoint]

/-- One span of this curve is too narrow to count, and both ends are clamped. -/
theorem exists_curve?_inHull_narrow_span :
    let s : Spline ℝ :=
      ⟨2, [0, 0, 0, 1, 1 + 1 / 2 ^ 60, 4, 4, 4], [⟨0, 0⟩, ⟨1, 2⟩, ⟨3, 2⟩, ⟨4, 0⟩, ⟨5, 1⟩]⟩
    let tess := Tessellation.ofNat 4
    ((∀ n : ℕ, (Scalar.ofNat n : ℝ) = n) ∧ s.domain? = some (0, 4) ∧ s.IsClampedLeft ∧
      s.IsClampedRight) ∧
      ∃ points, s.curve? tess = some ⟨points⟩ ∧ points.length = 5 ∧
        List.Forall₂ (fun t p => s.point? t = some p ∧ ∃ k, s.InHull t k p)
          (tess.parameters 0 (4 - 0) 5) points ∧
        points.head? = some ⟨0, 0⟩ ∧ points.getLast? = some ⟨5, 1⟩ := by
  intro s tess
  have hcount : ∀ n : ℕ, (Scalar.ofNat n : ℝ) = n := fun _ => rfl
  have hdomain : s.domain? = some (0, 4) := by
    norm_num [s, domain?, decreases]
  have hleft : s.IsClampedLeft := by
    refine ⟨fun i hi => ?_, ?_⟩
    · have hi : i ≤ 2 := hi
      interval_cases i <;> norm_num [s, knot]
    · norm_num [s, knot]
  have hright : s.IsClampedRight := by
    refine ⟨fun i hi hstart => ?_, ?_⟩
    · have hi : i < 8 := hi
      have hstart : 5 ≤ i := hstart
      interval_cases i <;> norm_num [s, knot]
    · norm_num [s, knot, Scalar.knotTolerance]
  obtain ⟨points, hcurve, hlength, heach, hfirst, hlast⟩ := exists_curve?_inHull hcount hdomain tess
  exact ⟨⟨hcount, hdomain, hleft, hright⟩, points, hcurve, hlength, heach, hfirst hleft,
    hlast hright⟩

end Spline

end Turnery
