import Turnery.Curve.Spline
import Turnery.Proofs.Fault

/-!
# Look-ups of a b-spline

A curve whose numbers of knots and control points fit its degree is evaluated at every parameter,
also at one that compares with nothing: `exists_point?`. The order of the knots plays no part in
this, nor the arithmetic of the scalars, so the same holds of doubles that are not numbers. What the
weights of each level keep is a property of the point of the curve.
-/

namespace Turnery

namespace Spline

variable {α : Type}

/-- The numbers of knots and of control points fit the degree. -/
structure Fits (s : Spline α) : Prop where
  degree_lt : s.degree < s.control.length
  length_knots : s.knots.length = s.control.length + s.degree + 1

theorem isChain_of_decreases [LT α] [DecidableLT α] {knots : List α} (h : decreases knots = false) :
    knots.IsChain fun a b => ¬b < a := by
  induction knots with
  | nil => exact .nil
  | cons a rest ih =>
    cases rest with
    | nil => exact .singleton a
    | cons b rest =>
      simp only [decreases, List.tail_cons, List.zip_cons_cons, List.any_cons, Bool.or_eq_false_iff,
        decide_eq_false_iff_not] at h
      exact List.isChain_cons_cons.2 ⟨h.1, ih h.2⟩

/-- What a curve with a domain is checked for: its numbers fit, its knots do not decrease, and the
domain goes from one of them to a later one. -/
structure IsDomain [LT α] (s : Spline α) (first last : α) : Prop extends s.Fits where
  degree_pos : 0 < s.degree
  ordered : s.knots.IsChain fun a b => ¬b < a
  knot_first : s.knots[s.degree]? = some first
  knot_last : s.knots[s.control.length]? = some last
  first_lt_last : first < last

theorem isDomain_of_domain? [LT α] [DecidableLT α] {s : Spline α} {first last : α}
    (h : s.domain? = some (first, last)) : s.IsDomain first last := by
  unfold domain? at h
  split at h
  · cases h
  · rename_i hguard
    simp only [Bool.or_eq_true, beq_iff_eq, decide_eq_true_eq, bne_iff_ne, not_or, Nat.not_le,
      Decidable.not_not, Bool.not_eq_true] at hguard
    obtain ⟨⟨⟨hpos, hdegree⟩, hlength⟩, hsorted⟩ := hguard
    rw [List.getElem?_eq_getElem (by omega), List.getElem?_eq_getElem (by omega)] at h
    obtain ⟨hlt, heq⟩ := (Option.ite_none_right_eq_some ..).1 h
    obtain ⟨rfl, rfl⟩ := Prod.mk.inj (Option.some.inj heq)
    exact { degree_lt := hdegree, length_knots := hlength, degree_pos := Nat.pos_of_ne_zero hpos,
            ordered := isChain_of_decreases hsorted, knot_first := List.getElem?_eq_getElem _,
            knot_last := List.getElem?_eq_getElem _, first_lt_last := hlt }

theorem position?_of_le {i j : ℕ} (h : j ≤ i) : position? i j = some (i - j) :=
  if_pos h

section Span

variable [LE α] [DecidableLE α] {t : α}

/-- The span at which a search from `start` to `stop` ends: the parameter is not before the right
end of any span passed, and it is before that of the span itself, unless this is the last one. -/
structure IsSpan (knots : List α) (t : α) (start stop k : ℕ) : Prop where
  start_le : start ≤ k
  le_stop : k ≤ stop
  passed : ∀ j, start < j → j ≤ k → ∃ x, knots[j]? = some x ∧ x ≤ t
  ends : k < stop → ∃ x, knots[k + 1]? = some x ∧ ¬x ≤ t

theorem exists_spanFrom? {knots : List α} {remaining start : ℕ}
    (hlength : start + remaining < knots.length) :
    ∃ k, spanFrom? knots t remaining start = some k ∧
      IsSpan knots t start (start + remaining) k := by
  induction remaining generalizing start with
  | zero => exact ⟨start, rfl, Nat.le_refl _, Nat.le_refl _, by omega, by omega⟩
  | succ remaining ih =>
    have hnext : knots[start + 1]? = some knots[start + 1] := List.getElem?_eq_getElem (by omega)
    by_cases hpassed : knots[start + 1] ≤ t
    · obtain ⟨k, hk, hspan⟩ := @ih (start + 1) (by omega)
      have hstop : start + 1 + remaining = start + (remaining + 1) := by omega
      rw [hstop] at hspan
      refine ⟨k, ?_, ?_⟩
      · rw [spanFrom?, hnext]
        exact (if_pos hpassed).trans hk
      · refine { start_le := Nat.le_of_succ_le hspan.start_le, le_stop := hspan.le_stop,
                 passed := ?_, ends := hspan.ends }
        intro j hj hjk
        rcases Nat.eq_or_lt_of_le hj with rfl | hlt
        · exact ⟨_, hnext, hpassed⟩
        · exact hspan.passed j hlt hjk
    · refine ⟨start, ?_, Nat.le_refl _, by omega, by omega, fun _ => ⟨_, hnext, hpassed⟩⟩
      rw [spanFrom?, hnext]
      exact if_neg hpassed

variable {s : Spline α}

/-- The search for the span of a parameter ends between the degree and the last span of the
domain. -/
theorem Fits.exists_span? (h : s.Fits) (t : α) :
    ∃ k, s.span? t = some k ∧ IsSpan s.knots t s.degree (s.control.length - 1) k := by
  have hdegree := h.degree_lt
  have hlength := h.length_knots
  have hlast : position? s.control.length 1 = some (s.control.length - 1) :=
    position?_of_le (by omega)
  have hspans : position? (s.control.length - 1) s.degree =
      some (s.control.length - 1 - s.degree) :=
    position?_of_le (by omega)
  have hstop : s.degree + (s.control.length - 1 - s.degree) = s.control.length - 1 := by omega
  obtain ⟨k, hk, hspan⟩ :=
    @exists_spanFrom? _ _ _ t s.knots (s.control.length - 1 - s.degree) s.degree (by omega)
  rw [hstop] at hspan
  refine ⟨k, ?_, hspan⟩
  simp only [span?, hlast, hspans, Option.bind_eq_bind, Option.bind_some, hk]

end Span

/-- The control points that have influence on a span: as many as the degree, and one more. -/
def neighbours (s : Spline α) (k : ℕ) : List (Point α) :=
  (s.control.drop (k - s.degree)).take (s.degree + 1)

variable {s : Spline α} {k : ℕ}

theorem length_neighbours (hdegree : s.degree ≤ k) (hk : k < s.control.length) :
    (s.neighbours k).length = s.degree + 1 := by
  rw [neighbours, List.length_take, List.length_drop]
  omega

theorem getElem?_neighbours {j : ℕ} (hj : j ≤ s.degree) :
    (s.neighbours k)[j]? = s.control[k - s.degree + j]? := by
  rw [neighbours, List.getElem?_take_of_lt (by omega), List.getElem?_drop]

theorem support?_eq_neighbours (hdegree : s.degree ≤ k) (hk : k < s.control.length) :
    s.support? k = some (s.neighbours k) := by
  have hlength := length_neighbours hdegree hk
  obtain ⟨points, hpoints, heach⟩ := @exists_mapM_eq_some _ _
    (fun j => (position? (j + k) s.degree).bind fun i => s.control[i]?)
    (fun j p => (s.neighbours k)[j]? = some p) (List.range (s.degree + 1)) (by
      intro j hj
      have hj := List.mem_range.1 hj
      have hposition : position? (j + k) s.degree = some (k - s.degree + j) := by
        rw [position?_of_le (by omega)]
        exact congrArg some (by omega)
      refine ⟨(s.neighbours k)[j], ?_, List.getElem?_eq_getElem _⟩
      rw [hposition, Option.bind_some, ← getElem?_neighbours (by omega), List.getElem?_eq_getElem])
  have hcount : points.length = s.degree + 1 := by
    rw [← heach.length_eq, List.length_range]
  have heq : points = s.neighbours k := by
    refine List.ext_getElem (hcount.trans hlength.symm) fun j hj hj' => ?_
    have hrange : j < (List.range (s.degree + 1)).length := by rwa [List.length_range, ← hcount]
    have hpoint := heach.get hrange hj
    rw [List.get_eq_getElem, List.get_eq_getElem, List.getElem_range, List.getElem?_eq_getElem hj']
      at hpoint
    exact (Option.some.inj hpoint).symm
  rw [← heq]
  exact hpoints

/-- The points from a position on have a property, each at its own position. -/
def HoldFrom (P : ℕ → Point α → Prop) (start : ℕ) (points : List (Point α)) : Prop :=
  ∀ i p, points[i]? = some p → P (start + i) p

theorem holdFrom_cons {P : ℕ → Point α → Prop} {start : ℕ} {p : Point α} {points : List (Point α)} :
    HoldFrom P start (p :: points) ↔ P start p ∧ HoldFrom P (start + 1) points := by
  constructor
  · intro h
    refine ⟨h 0 p rfl, fun i q hq => ?_⟩
    rw [Nat.add_right_comm]
    exact h (i + 1) q hq
  · rintro ⟨hp, hpoints⟩ i q hq
    cases i with
    | zero =>
      obtain rfl := Option.some.inj hq
      exact hp
    | succ i =>
      have := hpoints i q hq
      rwa [Nat.add_right_comm] at this

section Weights

variable [Sub α] [Div α] [Neg α] [Zero α] [LT α] [DecidableLT α] [Scalar α]

/-- The weight of a parameter between two knots. -/
def weightBetween (t left right : α) : α :=
  if isNegligible Scalar.knotTolerance (right - left) then 0 else (t - left) / (right - left)

/-- The knots between which a weight lies, by their positions. -/
theorem Fits.exists_weight?_eq (h : s.Fits) (hdegree : s.degree ≤ k) (hk : k < s.control.length)
    (t : α) {level j : ℕ} (hlevel : 0 < level) (hj : level ≤ j) (hj' : j ≤ s.degree) :
    ∃ left right, s.knots[j + k - s.degree]? = some left ∧
      s.knots[j + k - s.degree + s.degree + 1 - level]? = some right ∧
      s.weight? t k level j = some (weightBetween t left right) := by
  have hlength := h.length_knots
  have hposition : position? (j + k) s.degree = some (j + k - s.degree) :=
    position?_of_le (by omega)
  have hupper : position? (j + k - s.degree + s.degree + 1) level =
      some (j + k - s.degree + s.degree + 1 - level) :=
    position?_of_le (by omega)
  have hleft : s.knots[j + k - s.degree]? = some s.knots[j + k - s.degree] :=
    List.getElem?_eq_getElem (by omega)
  have hright : s.knots[j + k - s.degree + s.degree + 1 - level]? =
      some s.knots[j + k - s.degree + s.degree + 1 - level] := List.getElem?_eq_getElem (by omega)
  refine ⟨_, _, hleft, hright, ?_⟩
  simp only [weight?, hposition, hupper, hleft, hright, Option.bind_eq_bind, Option.bind_some,
    weightBetween]
  exact (apply_ite some _ _ _).symm

/-- Every weight is that between two knots, one on each side of the span. -/
theorem Fits.exists_weight? (h : s.Fits) (hdegree : s.degree ≤ k) (hk : k < s.control.length)
    (t : α) {level j : ℕ} (hlevel : 0 < level) (hj : level ≤ j) (hj' : j ≤ s.degree) :
    ∃ lower upper left right, lower ≤ k ∧ k < upper ∧ s.knots[lower]? = some left ∧
      s.knots[upper]? = some right ∧
      s.weight? t k level j = some (weightBetween t left right) := by
  obtain ⟨left, right, hleft, hright, hweight⟩ := h.exists_weight?_eq hdegree hk t hlevel hj hj'
  exact ⟨_, _, left, right, by omega, by omega, hleft, hright, hweight⟩

end Weights

section Blends

variable [Add α] [Sub α] [Mul α] [Div α] [Neg α] [Zero α] [One α] [LT α] [DecidableLT α] [Scalar α]
  {t : α}

/-- What each blend of a level makes of two neighbours, it makes of all. -/
theorem exists_blendLevel? {P Q : ℕ → Point α → Prop} {level start : ℕ} {points : List (Point α)}
    (hstep : ∀ i, start ≤ i → i + 1 < start + points.length → ∃ w,
      s.weight? t k level (i + 1) = some w ∧ ∀ p q, P i p → P (i + 1) q → Q (i + 1) (blend w p q))
    (hpoints : HoldFrom P start points) :
    ∃ next, s.blendLevel? t k level (start + 1) points = some next ∧
      next.length = points.length - 1 ∧
      HoldFrom Q (start + 1) next := by
  induction points generalizing start with
  | nil => exact ⟨[], rfl, rfl, nofun⟩
  | cons p rest ih =>
    cases rest with
    | nil => exact ⟨[], rfl, rfl, nofun⟩
    | cons q rest =>
      simp only [List.length_cons] at hstep
      obtain ⟨hp, hrest⟩ := holdFrom_cons.1 hpoints
      obtain ⟨w, hw, hblend⟩ := hstep start (Nat.le_refl _) (by omega)
      obtain ⟨others, hothers, hlength, hkept⟩ := @ih (start + 1)
        (fun i hi hlt => hstep i (by omega) (by simp only [List.length_cons] at hlt; omega)) hrest
      refine ⟨blend w p q :: others, ?_, ?_,
        holdFrom_cons.2 ⟨hblend p q hp (holdFrom_cons.1 hrest).1, hkept⟩⟩
      · rw [blendLevel?, hw, hothers]
        rfl
      · rw [List.length_cons, hlength]
        rfl

/-- What the blends of each level make of the level below holds of the top. -/
theorem exists_blendLevels? {P : ℕ → ℕ → Point α → Prop}
    (hstep : ∀ r i, r ≤ i → i < s.degree → ∃ w, s.weight? t k (r + 1) (i + 1) = some w ∧ ∀ p q,
      P r i p → P r (i + 1) q → P (r + 1) (i + 1) (blend w p q))
    {left r : ℕ} (hr : r + left = s.degree) {points : List (Point α)}
    (hlength : points.length = left + 1) (hpoints : HoldFrom (P r) r points) :
    ∃ top, s.blendLevels? t k left (r + 1) points = some [top] ∧ P s.degree s.degree top := by
  induction left generalizing r points with
  | zero =>
    obtain ⟨top, rfl⟩ := List.length_eq_one_iff.1 hlength
    rw [Nat.add_zero] at hr
    refine ⟨top, rfl, ?_⟩
    rw [← hr]
    exact (holdFrom_cons.1 hpoints).1
  | succ left ih =>
    obtain ⟨next, hnext, hcount, hkept⟩ := exists_blendLevel? (Q := P (r + 1))
      (fun i hi hlt => hstep r i hi (by omega)) hpoints
    obtain ⟨top, htop, hheld⟩ := @ih (r + 1) (by omega) next (by omega) hkept
    refine ⟨top, ?_, hheld⟩
    rw [blendLevels?, hnext]
    exact htop

variable [LE α] [DecidableLE α]

/-- A parameter in a span has a point, of which holds what the blends make of the control points of
the span. -/
theorem exists_point? {P : ℕ → ℕ → Point α → Prop} (hspan : s.span? t = some k)
    (hdegree : s.degree ≤ k) (hk : k < s.control.length)
    (hground : HoldFrom (P 0) 0 (s.neighbours k))
    (hstep : ∀ r i, r ≤ i → i < s.degree → ∃ w, s.weight? t k (r + 1) (i + 1) = some w ∧ ∀ p q,
      P r i p → P r (i + 1) q → P (r + 1) (i + 1) (blend w p q)) :
    ∃ p, s.point? t = some p ∧ P s.degree s.degree p := by
  obtain ⟨top, htop, hheld⟩ :=
    exists_blendLevels? hstep (Nat.zero_add s.degree) (length_neighbours hdegree hk) hground
  refine ⟨top, ?_, hheld⟩
  simp only [point?, hspan, support?_eq_neighbours hdegree hk, Option.bind_eq_bind,
    Option.bind_some, htop, List.head?_cons]

/-- Every parameter has a point, whatever the knots and the control points are. -/
theorem Fits.exists_point? (h : s.Fits) (t : α) : ∃ p, s.point? t = some p := by
  have hdegree := h.degree_lt
  obtain ⟨k, hk, hspan⟩ := h.exists_span? t
  have hstart := hspan.start_le
  have hstop := hspan.le_stop
  obtain ⟨p, hp, -⟩ :=
    Spline.exists_point? (P := fun _ _ _ => True) hk hstart (by omega) (fun _ _ _ => trivial)
    fun r i hr hi => by
      obtain ⟨_, _, left, right, _, _, _, _, hweight⟩ :=
        h.exists_weight? hstart (by omega) t (Nat.succ_pos r) (Nat.succ_le_succ hr)
          (Nat.succ_le_of_lt hi)
      exact ⟨_, hweight, fun _ _ _ _ => trivial⟩
  exact ⟨p, hp⟩

/-- A curve with a domain is evaluated at all its parameters. -/
theorem exists_curve? {first last : α} (hdomain : s.domain? = some (first, last))
    (tess : Tessellation) {r : α → Point α → Prop}
    (hpoint : ∀ t ∈ tess.parameters first (last - first) (tess.segments + 1), ∃ p,
      s.point? t = some p ∧ r t p) :
    ∃ points, s.curve? tess = some ⟨points⟩ ∧ points.length = tess.segments + 1 ∧
      List.Forall₂ r (tess.parameters first (last - first) (tess.segments + 1)) points := by
  obtain ⟨points, hpoints, heach⟩ := exists_mapM_eq_some hpoint
  refine ⟨points, ?_, ?_, heach⟩
  · rw [curve?, hdomain]
    simp only [Option.bind_eq_bind, Option.bind_some, hpoints]
  · rw [← heach.length_eq, Tessellation.parameters, List.length_map, List.length_range]

end Blends

end Spline

end Turnery
