import Turnery.Proofs.Curve.Extent
import Turnery.Proofs.Drawing.Placement
import Turnery.Proofs.Import.SameShape

/-!
# Splines that are lost

A spline is drawn through its fit points, along its curve or as its control polygon, and is left out
if what was drawn is not finite. The control polygon takes the place of a curve that cannot be
evaluated, not of one that leaves the doubles. So a spline is lost whose knots pass the check of the
curve but lead to points that are no numbers: knots that are no numbers or infinite, and knots that
lie too far apart. `exists_place_spline` says that nothing else is lost.
-/

namespace Turnery.Placement

open Number

variable {curve : Spline Float} {fit : List (Point Float)} {line : Polyline Float}

/-- The polyline that a spline is drawn as: its fit points if it has two or more, else its control
polygon if it has no domain, else its curve. -/
inductive IsSplineLine (tess : Tessellation) (curve : Spline Float) (fit : List (Point Float)) :
    Polyline Float → Prop where
  | fit (hfit : 2 ≤ fit.length) : IsSplineLine tess curve fit ⟨fit⟩
  | control (hfit : fit.length < 2) (hdomain : curve.domain? = none) :
    IsSplineLine tess curve fit ⟨curve.control⟩
  | curve (hfit : fit.length < 2) {points : List (Point Float)}
    (hcurve : curve.curve? tess = some ⟨points⟩)
    (hlength : points.length = tess.segments + 1) : IsSplineLine tess curve fit ⟨points⟩

variable (tess : Tessellation)

/-- Every spline is drawn as one of the three. -/
theorem isSplineLine_splineOutline (curve : Spline Float) (fit : List (Point Float)) :
    IsSplineLine tess curve fit (splineOutline tess curve fit) := by
  rw [splineOutline]
  split
  · rename_i hfit
    exact .fit hfit
  · rename_i hfit
    cases hdomain : curve.domain? with
    | none =>
      have hcurve : curve.curve? tess = none := by
        rw [Spline.curve?, hdomain]
        rfl
      rw [hcurve]
      exact .control (Nat.lt_of_not_le hfit) hdomain
    | some domain =>
      obtain ⟨points, hcurve, hlength, -⟩ :=
          Spline.exists_curve? (r := fun _ _ => True) hdomain tess fun t _ => by
        obtain ⟨p, hp⟩ := (Spline.isDomain_of_domain? hdomain).exists_point? t
        exact ⟨p, hp, trivial⟩
      rw [hcurve]
      exact .curve (Nat.lt_of_not_le hfit) hcurve hlength

variable {tess}

/-- A spline with two fit points or a control point is drawn as a polyline with points. -/
theorem IsSplineLine.points_ne_nil (h : IsSplineLine tess curve fit line)
    (hpoints : 2 ≤ fit.length ∨ curve.control ≠ []) : line.points ≠ [] := by
  cases h with
  | fit hfit => exact List.ne_nil_of_length_pos (Nat.two_pos.trans_le hfit)
  | control hfit => exact hpoints.resolve_left (Nat.not_le_of_lt hfit)
  | curve hfit hcurve hlength => exact List.ne_nil_of_length_eq_add_one hlength

/-- Only a curve leaves the doubles, and only one that is not moderate. -/
theorem IsSplineLine.curve_of_not_isFinite (h : IsSplineLine tess curve fit line)
    (hsegments : tess.segments < 2 ^ 64) (hcontrol : ∀ p ∈ curve.control, p.isFinite = true)
    (hfit : ∀ p ∈ fit, p.isFinite = true) (hfinite : line.isFinite = false) :
    fit.length < 2 ∧ curve.curve? tess = some line ∧ ∀ a m, ¬curve.IsModerate a m := by
  cases h with
  | fit => exact absurd (List.all_eq_true.2 hfit) (Bool.eq_false_iff.1 hfinite)
  | control => exact absurd (List.all_eq_true.2 hcontrol) (Bool.eq_false_iff.1 hfinite)
  | curve hshort hcurve =>
    refine ⟨hshort, hcurve, fun a m hmoderate => ?_⟩
    exact Bool.eq_false_iff.1 hfinite (hmoderate.isFinite_curve? hsegments hcurve)

/-- A spline whose points are finite is drawn as a polyline with finite points, unless its curve is
not moderate: then it is lost if the curve leaves the doubles. -/
theorem exists_place_spline (drawing : Drawing Float) (room : ℕ)
    (hsegments : tess.segments < 2 ^ 64) (hcontrol : ∀ p ∈ curve.control, p.isFinite = true)
    (hfit : ∀ p ∈ fit, p.isFinite = true) (hpoints : 2 ≤ fit.length ∨ curve.control ≠ []) :
    ∃ line, IsSplineLine tess curve fit line ∧ line.points ≠ [] ∧
      (line.isFinite = true ∧ place tess drawing room .identity (.spline curve fit) = .ok [line] ∨
        line.isFinite = false ∧ place tess drawing room .identity (.spline curve fit) =
          .error (.notFinite "SPLINE") ∧
          fit.length < 2 ∧ curve.curve? tess = some line ∧ ∀ a m, ¬curve.IsModerate a m) := by
  have hline := isSplineLine_splineOutline tess curve fit
  refine ⟨splineOutline tess curve fit, hline, hline.points_ne_nil hpoints, ?_⟩
  rw [place_of_insertion?_eq_none tess drawing rfl]
  cases hfinite : (splineOutline tess curve fit).isFinite with
  | true =>
    refine .inl ⟨rfl, ?_⟩
    have hdrawable : IsDrawable tess (.spline curve fit) := ⟨rfl, trivial, hfinite⟩
    rw [finiteOutline_of_isDrawable tess hdrawable]
    exact congrArg (fun line => Except.ok [line]) (moved_identity _)
  | false =>
    refine .inr ⟨rfl, ?_, hline.curve_of_not_isFinite hsegments hcontrol hfit hfinite⟩
    have hfailed : finiteOutline tess (.spline curve fit) = .error (.notFinite "SPLINE") :=
      if_neg (Bool.eq_false_iff.1 hfinite)
    rw [hfailed]
    rfl

/-- A moderate spline is drawn along its curve. -/
theorem exists_place_spline_straight :
    ∃ line : Polyline Float, place (.ofNat 4) (.ofEntities []) maxDepth .identity
        (.spline ⟨1, [0, 0, 1, 1], [⟨0, 0⟩, ⟨4, 0⟩]⟩ []) = .ok [line] ∧ line.points.length = 5 := by
  let curve : Spline Float := ⟨1, [0, 0, 1, 1], [⟨0, 0⟩, ⟨4, 0⟩]⟩
  have hmoderate : curve.IsModerate 0 2 := by
    have hfour : IsOfSize 2 4 := isOfSize_ofNat (n := 4) (by norm_num) (by norm_num)
    exact { knots := by simp [curve, isOfSize_zero, isOfSize_one],
            control := by
              simp [curve, Spline.PointOfSize, isOfSize_zero, hfour], room := by norm_num [curve] }
  obtain ⟨line, hline, -, ⟨-, hplaced⟩ | ⟨-, -, -, -, hlarge⟩⟩ :=
    @exists_place_spline curve [] (.ofNat 4) (.ofEntities []) maxDepth (by decide)
      (by decide +kernel) (by decide)
      (.inr (List.cons_ne_nil _ _))
  · refine ⟨line, hplaced, ?_⟩
    cases hline with
    | fit hfit => cases hfit
    | control hfit hdomain => exact absurd hdomain (by decide +kernel)
    | curve hfit hcurve hlength => exact hlength
  · exact absurd hmoderate (hlarge 0 2)

/-- Splines with finite control points are lost: their knots are infinite, no numbers, or too far
apart. -/
theorem exists_lost_spline :
    ∃ control : List (Point Float), control ≠ [] ∧ (∀ p ∈ control, p.isFinite = true) ∧
      ∀ knots ∈ [[0, 0, 1, 1 / 0, 1 / 0], [0, 0, 0 / 0, 1, 1],
        [-1.7e308, -1.7e308, 0, 1.7e308, 1.7e308]],
        place (.ofNat 2) (.ofEntities []) maxDepth .identity (.spline ⟨1, knots, control⟩ []) =
          .error (.notFinite "SPLINE") := by
  refine ⟨[⟨0, 0⟩, ⟨1, 1⟩, ⟨2, 0⟩], by decide +kernel, by decide +kernel, ?_⟩
  decide +kernel

end Turnery.Placement
