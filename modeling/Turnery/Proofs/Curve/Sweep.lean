import Turnery.Proofs.Curve.Steps
import Turnery.Proofs.Number.Arithmetic

/-!
# Sweeps

The parameters of an arc and of an ellipse go from a start towards an end in equal steps, in
doubles. However these are rounded, the parameters keep to one direction, from the start itself to
the end up to the rounding of a difference: `isSweep_parameters`. Which direction that is depends on
the end that was chosen, and that is taken at most one turn later: an end that is more than a turn
before the start stays before it, and the curve goes clockwise (`exists_clockwise_arc`).
-/

namespace Turnery

open Number

namespace Tessellation

/-- Values that go from a start to an end and never turn round. They ascend exactly if the end does
not lie before the start. -/
structure IsSweep (values : List Float) (start finish : Float) : Prop where
  first : values.head?.map toRat = some (toRat start)
  last : ∀ t ∈ values.getLast?, t.isFinite = true →
    |toRat t - toRat finish| ≤ |toRat finish - toRat start| / 2 ^ 52
  ascends_iff : values.Pairwise (· ≤ ·) ↔ start ≤ finish
  descends : finish ≤ start → values.Pairwise (· ≥ ·)

variable {tess : Tessellation}

/-- A fraction of the way is rounded twice: numerator and denominator, and their quotient. -/
theorem toRat_fraction (hsegments : tess.segments < 2 ^ 64) {i : ℕ} (hi : i ≤ tess.segments) :
    (tess.fraction i : Float).isFinite = true ∧
      toRat (tess.fraction i) = nearest (nearest i / nearest tess.segments) := by
  obtain ⟨hfinite, hvalue⟩ := toRat_ofNat (hi.trans_lt hsegments)
  obtain ⟨hfinite', hvalue'⟩ := toRat_ofNat hsegments
  have hone : 1 ≤ nearest tess.segments :=
    isDouble_one.le_nearest (by exact_mod_cast tess.segments_pos)
  have hle : nearest i ≤ nearest tess.segments := nearest_mono (by exact_mod_cast hi)
  have hnonneg : 0 ≤ nearest i := isDouble_zero.le_nearest i.cast_nonneg
  have hdiv := isNearest_div hfinite hfinite' (by rw [hvalue']; linarith)
  rw [hvalue, hvalue'] at hdiv
  have hbound : |nearest i / nearest tess.segments| ≤ 2 ^ (0 : ℤ) := by
    rw [abs_of_nonneg (by positivity), zpow_zero]
    exact div_le_one_of_le₀ hle (by linarith)
  have hquotient := (hdiv.isFinite_of_abs_le (by norm_num) (by norm_num) hbound).1
  exact ⟨hquotient, hdiv.toRat_eq hquotient⟩

theorem toRat_fraction_mono (hsegments : tess.segments < 2 ^ 64) {i j : ℕ} (hij : i ≤ j)
    (hj : j ≤ tess.segments) :
    toRat (tess.fraction i) ≤ toRat (tess.fraction j) := by
  have hnonneg : 0 ≤ nearest tess.segments := isDouble_zero.le_nearest tess.segments.cast_nonneg
  rw [(toRat_fraction hsegments (hij.trans hj)).2, (toRat_fraction hsegments hj).2]
  exact nearest_mono (div_le_div_of_nonneg_right (nearest_mono (by exact_mod_cast hij)) hnonneg)

theorem toRat_fraction_zero (hsegments : tess.segments < 2 ^ 64) : toRat (tess.fraction 0) = 0 := by
  rw [(toRat_fraction hsegments (Nat.zero_le _)).2, Nat.cast_zero, nearest_zero, zero_div,
    nearest_zero]

theorem toRat_fraction_segments (hsegments : tess.segments < 2 ^ 64) :
    toRat (tess.fraction tess.segments) = 1 := by
  have hone : 1 ≤ nearest tess.segments :=
    isDouble_one.le_nearest (by exact_mod_cast tess.segments_pos)
  rw [(toRat_fraction hsegments le_rfl).2, div_self (by linarith), isDouble_one.nearest_eq]

theorem toRat_fraction_nonneg (hsegments : tess.segments < 2 ^ 64) {i : ℕ}
    (hi : i ≤ tess.segments) :
    0 ≤ toRat (tess.fraction i) :=
  (toRat_fraction_zero hsegments).symm.trans_le (toRat_fraction_mono hsegments (Nat.zero_le i) hi)

theorem toRat_fraction_le_one (hsegments : tess.segments < 2 ^ 64) {i : ℕ}
    (hi : i ≤ tess.segments) :
    toRat (tess.fraction i) ≤ 1 :=
  (toRat_fraction_mono hsegments hi le_rfl).trans_eq (toRat_fraction_segments hsegments)

section Parameters

variable {start sweep : Float}

/-- A fraction of the sweep is not longer than the sweep. -/
theorem toRat_mul_fraction (hsegments : tess.segments < 2 ^ 64) (hsweep : sweep.isFinite = true)
    {i : ℕ} (hi : i ≤ tess.segments) :
    (sweep * tess.fraction i).isFinite = true ∧
      toRat (sweep * tess.fraction i) = nearest (toRat sweep * toRat (tess.fraction i)) := by
  have hmul := isNearest_mul hsweep (toRat_fraction hsegments hi).1
  have hfinite : (sweep * tess.fraction i).isFinite = true := by
    refine hmul.isFinite_of_le (isNearest_toRat hsweep) ?_ hsweep
    rw [abs_mul, abs_of_nonneg (toRat_fraction_nonneg hsegments hi)]
    exact mul_le_of_le_one_right (abs_nonneg _) (toRat_fraction_le_one hsegments hi)
  exact ⟨hfinite, hmul.toRat_eq hfinite⟩

theorem isNearest_parameter (hsegments : tess.segments < 2 ^ 64) (hstart : start.isFinite = true)
    (hsweep : sweep.isFinite = true) {i : ℕ} (hi : i ≤ tess.segments) :
    IsNearest (start + sweep * tess.fraction i)
      (toRat start + nearest (toRat sweep * toRat (tess.fraction i))) := by
  obtain ⟨hfinite, hvalue⟩ := toRat_mul_fraction hsegments hsweep hi
  rw [← hvalue]
  exact isNearest_add hstart hfinite

theorem isNearest_first (hsegments : tess.segments < 2 ^ 64) (hstart : start.isFinite = true)
    (hsweep : sweep.isFinite = true) :
    IsNearest (start + sweep * tess.fraction 0) (toRat start) := by
  have hnearest := isNearest_parameter hsegments hstart hsweep (Nat.zero_le _)
  rwa [toRat_fraction_zero hsegments, mul_zero, nearest_zero, add_zero] at hnearest

theorem isNearest_last (hsegments : tess.segments < 2 ^ 64) (hstart : start.isFinite = true)
    (hsweep : sweep.isFinite = true) :
    IsNearest (start + sweep * tess.fraction tess.segments) (toRat start + toRat sweep) := by
  have hnearest := isNearest_parameter hsegments hstart hsweep le_rfl
  rwa [toRat_fraction_segments hsegments, mul_one, (isDouble_toRat sweep).nearest_eq] at hnearest

/-- Two parameters are in the order of their numbers if that is the direction of the sweep. -/
theorem parameter_le (hsegments : tess.segments < 2 ^ 64) (hstart : start.isFinite = true)
    (hsweep : sweep.isFinite = true) {i j : ℕ} (hi : i ≤ tess.segments) (hj : j ≤ tess.segments)
    (h : toRat sweep * toRat (tess.fraction i) ≤ toRat sweep * toRat (tess.fraction j)) :
    start + sweep * tess.fraction i ≤ start + sweep * tess.fraction j :=
  (isNearest_parameter hsegments hstart hsweep hi).le
    (isNearest_parameter hsegments hstart hsweep hj)
    (add_le_add_right (nearest_mono h) _)

theorem pairwise_parameters {r : Float → Float → Prop} {count : ℕ}
    (hcount : count ≤ tess.segments + 1)
    (h : ∀ i j, i ≤ j → j ≤ tess.segments →
      r (start + sweep * tess.fraction i) (start + sweep * tess.fraction j)) :
    (tess.parameters start sweep count).Pairwise r := by
  rw [parameters, List.pairwise_map]
  refine List.pairwise_lt_range.imp_of_mem fun {i j} _ hj hij => ?_
  rw [List.mem_range] at hj
  exact h i j hij.le (by omega)

theorem pairwise_le_parameters (hsegments : tess.segments < 2 ^ 64) (hstart : start.isFinite = true)
    (hsweep : sweep.isFinite = true) (hnonneg : 0 ≤ toRat sweep) {count : ℕ}
    (hcount : count ≤ tess.segments + 1) :
    (tess.parameters start sweep count).Pairwise (· ≤ ·) := by
  refine pairwise_parameters hcount fun i j hij hj =>
    parameter_le hsegments hstart hsweep (hij.trans hj) hj ?_
  exact mul_le_mul_of_nonneg_left (toRat_fraction_mono hsegments hij hj) hnonneg

theorem pairwise_ge_parameters (hsegments : tess.segments < 2 ^ 64) (hstart : start.isFinite = true)
    (hsweep : sweep.isFinite = true) (hnonpos : toRat sweep ≤ 0) {count : ℕ}
    (hcount : count ≤ tess.segments + 1) :
    (tess.parameters start sweep count).Pairwise (· ≥ ·) := by
  refine pairwise_parameters hcount fun i j hij hj =>
    parameter_le hsegments hstart hsweep hj (hij.trans hj) ?_
  exact mul_le_mul_of_nonpos_left (toRat_fraction_mono hsegments hij hj) hnonpos

/-- What holds of all parameters in their order holds of the first and the last. -/
theorem rel_of_pairwise_parameters {r : Float → Float → Prop}
    (h : (tess.parameters start sweep (tess.segments + 1)).Pairwise r) :
    r (start + sweep * tess.fraction 0) (start + sweep * tess.fraction tess.segments) := by
  rw [parameters, List.pairwise_map, List.pairwise_iff_getElem] at h
  have hends := h 0 tess.segments (by simp) (by simp) tess.segments_pos
  rwa [List.getElem_range, List.getElem_range] at hends

/-- The first parameter is the start itself. -/
theorem head?_parameters (hsegments : tess.segments < 2 ^ 64) (hstart : start.isFinite = true)
    (hsweep : sweep.isFinite = true) {count : ℕ} (hcount : 0 < count) :
    (tess.parameters start sweep count).head?.map toRat = some (toRat start) := by
  obtain ⟨k, rfl⟩ := Nat.exists_eq_succ_of_ne_zero hcount.ne'
  have hfirst := isNearest_first hsegments hstart hsweep
  have hfinite := hfirst.isFinite_of_le (isNearest_toRat hstart) le_rfl hstart
  rw [parameters, List.range_succ_eq_map, List.map_cons, List.head?_cons, Option.map_some,
    hfirst.toRat_eq hfinite, (isDouble_toRat start).nearest_eq]

variable {finish : Float}

/-- Towards an end before the start, the last parameter lies before the first. -/
theorem not_first_le_last (hsegments : tess.segments < 2 ^ 64) (hstart : start.isFinite = true)
    (hsweep : (finish - start).isFinite = true)
    (hvalue : toRat (finish - start) = nearest (toRat finish - toRat start))
    (h : toRat finish < toRat start) :
    ¬start + (finish - start) * tess.fraction 0 ≤
      start + (finish - start) * tess.fraction tess.segments := by
  have hfirst := isNearest_first hsegments hstart hsweep
  have hlast := isNearest_last hsegments hstart hsweep
  rw [hvalue] at hlast
  have hfinite := hfirst.isFinite_of_le (isNearest_toRat hstart) le_rfl hstart
  have hlt := nearest_add_nearest_sub_lt (isDouble_toRat start) (isDouble_toRat finish) h
  cases hlastFinite : (start + (finish - start) * tess.fraction tess.segments).isFinite with
  | true =>
    rw [le_iff_toRat_le hfinite hlastFinite, hfirst.toRat_eq hfinite, hlast.toRat_eq hlastFinite,
      (isDouble_toRat start).nearest_eq, not_le]
    exact hlt
  | false =>
    -- What overflows on the way down is negative.
    have hdown : nearest (toRat finish - toRat start) ≤ 0 := isDouble_zero.nearest_le (by linarith)
    have hneg : toRat start + nearest (toRat finish - toRat start) < 0 := by
      by_contra hnonneg
      rw [not_lt] at hnonneg
      have hsmall : |toRat start + nearest (toRat finish - toRat start)| ≤ |toRat start| := by
        rw [abs_of_nonneg hnonneg]
        exact (by linarith : _ ≤ toRat start).trans (le_abs_self _)
      have := hlast.isFinite_of_le (isNearest_toRat hstart) hsmall hstart
      rw [hlastFinite] at this
      cases this
    have hread := hlast.ofFloat_eq hlastFinite
    rw [decide_eq_true hneg] at hread
    exact not_le_negInfinity hfinite hread

/-- The parameters from a start to an end keep to one direction, as long as the sweep itself is a
double. -/
theorem isSweep_parameters (hsegments : tess.segments < 2 ^ 64) (hstart : start.isFinite = true)
    (hfinish : finish.isFinite = true) (hsweep : (finish - start).isFinite = true) :
    IsSweep (tess.parameters start (finish - start) (tess.segments + 1)) start finish := by
  have hlast := isNearest_last hsegments hstart hsweep
  have hvalue := (isNearest_sub hfinish hstart).toRat_eq hsweep
  refine ⟨head?_parameters hsegments hstart hsweep (Nat.succ_pos _), fun t ht hfinite => ?_,
    ⟨fun hpairwise => ?_, fun hle => ?_⟩, fun hge => ?_⟩
  · rw [getLast?_parameters] at ht
    obtain rfl := Option.some.inj ht
    rw [hlast.toRat_eq hfinite, hvalue]
    exact abs_nearest_add_nearest_sub_le (isDouble_toRat start) (isDouble_toRat finish)
  · rw [le_iff_toRat_le hstart hfinish]
    by_contra hlt
    exact not_first_le_last hsegments hstart hsweep hvalue (not_le.1 hlt)
      (rel_of_pairwise_parameters hpairwise)
  · rw [le_iff_toRat_le hstart hfinish] at hle
    refine pairwise_le_parameters hsegments hstart hsweep ?_ le_rfl
    rw [hvalue]
    exact isDouble_zero.le_nearest (sub_nonneg.2 hle)
  · rw [le_iff_toRat_le hfinish hstart] at hge
    refine pairwise_ge_parameters hsegments hstart hsweep ?_ le_rfl
    rw [hvalue]
    exact isDouble_zero.nearest_le (sub_nonpos.2 hge)

/-- A sweep that is beyond the doubles leaves no number for the start. -/
theorem not_pairwise_parameters (hsegments : tess.segments < 2 ^ 64) {negative : Bool}
    (hsweep : Binary64.ofFloat sweep = .infinite negative) :
    ¬(tess.parameters start sweep (tess.segments + 1)).Pairwise (· ≤ ·) := by
  intro hpairwise
  have hzero :=
    unpack_mul_zero hsweep (toRat_fraction hsegments (Nat.zero_le _)).1
      (toRat_fraction_zero hsegments)
  exact not_le_of_isNaN (isNaN_add hzero) (rel_of_pairwise_parameters hpairwise)

end Parameters

/-- Where an arc ends, in radians: at the end, or one turn later if that lies before the start. -/
def arcEnd (startDegrees endDegrees : Float) : Float :=
  let finish := Scalar.radians endDegrees
  if finish < Scalar.radians startDegrees then finish + Scalar.tau else finish

theorem abs_add_le_two_zpow {q r : ℚ} {k l : ℤ} (hl : l = k + 1) (hq : |q| ≤ 2 ^ k)
    (hr : |r| ≤ 2 ^ k) :
    |q + r| ≤ 2 ^ l := by
  rw [hl, zpow_add_one₀ two_ne_zero]
  linarith [abs_add_le q r]

theorem toRat_tau :
    (Scalar.tau : Float).isFinite = true ∧ toRat Scalar.tau = 7074237752028440 / 2 ^ 50 := by
  have hread : Binary64.ofFloat Scalar.tau = .finite false 7074237752028440 (-50) := by
    decide +kernel
  refine ⟨Binary64.isFinite_iff.2 ⟨_, _, _, hread⟩, ?_⟩
  rw [toRat_of_ofFloat hread, Binary64.magnitude, withSign]
  norm_num

theorem abs_toRat_tau_le : |toRat Scalar.tau| ≤ 2 ^ (3 : ℤ) := by
  rw [toRat_tau.2]
  norm_num

/-- What is not later than the end is not later than one turn behind the end. -/
theorem le_add_tau {start finish : Float} (hstart : start.isFinite = true)
    (hfinish : finish.isFinite = true) (h : start ≤ finish) : start ≤ finish + Scalar.tau := by
  rw [le_iff_toRat_le hstart hfinish] at h
  refine (isNearest_toRat hstart).le (isNearest_add hfinish toRat_tau.1)
    (h.trans (le_add_of_nonneg_right ?_))
  rw [toRat_tau.2]
  positivity

theorem toRat_radians {x : Float} (hx : x.isFinite = true) :
    (Scalar.radians x).isFinite = true ∧ |toRat (Scalar.radians x)| ≤ 2 ^ (1019 : ℤ) := by
  have hread : Binary64.ofFloat (halfTurn / 180) = .finite false 5030569068109113 (-58) := by
    decide +kernel
  have hdegree : |toRat (halfTurn / 180)| ≤ 2 ^ (-5 : ℤ) := by
    rw [toRat_of_ofFloat hread, abs_withSign, abs_of_nonneg (Binary64.magnitude_nonneg _ _),
      Binary64.magnitude]
    norm_num
  have hlargest : |toRat x| ≤ 2 ^ (53 : ℤ) * 2 ^ (971 : ℤ) :=
    (abs_toRat_le x).trans (mul_le_mul_of_nonneg_right (by norm_num) (by positivity))
  have hfinite := Binary64.isFinite_iff.2 ⟨_, _, _, hread⟩
  refine (isNearest_mul hx hfinite).isFinite_of_abs_le (by norm_num) (by norm_num) ?_
  rw [abs_mul]
  calc |toRat x| * |toRat (halfTurn / 180)| ≤ 2 ^ (53 : ℤ) * 2 ^ (971 : ℤ) * 2 ^ (-5 : ℤ) :=
        mul_le_mul hlargest hdegree (abs_nonneg _) (by positivity)
    _ = 2 ^ (1019 : ℤ) := by rw [← zpow_add₀ two_ne_zero, ← zpow_add₀ two_ne_zero]; rfl

section Arcs

variable {startDegrees endDegrees : Float}

theorem toRat_arcEnd (startDegrees : Float) (hend : endDegrees.isFinite = true) :
    (arcEnd startDegrees endDegrees).isFinite = true ∧
      |toRat (arcEnd startDegrees endDegrees)| ≤ 2 ^ (1020 : ℤ) := by
  obtain ⟨hfinite, hbound⟩ := toRat_radians hend
  unfold arcEnd
  dsimp only
  split
  · have htau :=
      abs_toRat_tau_le.trans (zpow_le_zpow_right₀ (by norm_num) (by norm_num : (3 : ℤ) ≤ 1019))
    exact (isNearest_add hfinite toRat_tau.1).isFinite_of_abs_le (by norm_num) (by norm_num)
      (abs_add_le_two_zpow rfl hbound htau)
  · exact ⟨hfinite, hbound.trans (zpow_le_zpow_right₀ (by norm_num) (by norm_num))⟩

/-- The end of an arc is not before its start exactly if the start is at most one turn behind the
end. -/
theorem le_arcEnd_iff (hstart : startDegrees.isFinite = true) (hend : endDegrees.isFinite = true) :
    Scalar.radians startDegrees ≤ arcEnd startDegrees endDegrees ↔
      Scalar.radians startDegrees ≤ Scalar.radians endDegrees + Scalar.tau := by
  have hfinite := (toRat_radians hstart).1
  have hfinite' := (toRat_radians hend).1
  unfold arcEnd
  dsimp only
  split
  · rfl
  · rename_i hnot
    rw [lt_iff_toRat_lt hfinite' hfinite, not_lt, ← le_iff_toRat_le hfinite hfinite'] at hnot
    exact iff_of_true hnot (le_add_tau hfinite hfinite' hnot)

theorem toRat_arcSweep (hstart : startDegrees.isFinite = true) (hend : endDegrees.isFinite = true) :
    (arcEnd startDegrees endDegrees - Scalar.radians startDegrees).isFinite = true ∧
      |toRat (arcEnd startDegrees endDegrees - Scalar.radians startDegrees)| ≤ 2 ^ (1021 : ℤ) := by
  obtain ⟨hfinite, hbound⟩ := toRat_radians hstart
  obtain ⟨hfinite', hbound'⟩ := toRat_arcEnd startDegrees hend
  refine (isNearest_sub hfinite' hfinite).isFinite_of_abs_le (by norm_num) (by norm_num) ?_
  have hneg : |-toRat (Scalar.radians startDegrees)| ≤ 2 ^ (1020 : ℤ) := by
    rw [abs_neg]
    exact hbound.trans (zpow_le_zpow_right₀ (by norm_num) (by norm_num))
  rw [sub_eq_add_neg]
  exact abs_add_le_two_zpow rfl hbound' hneg

/-- Angles in degrees are far from what is too large in radians. -/
theorem isFinite_arcAngle (hsegments : tess.segments < 2 ^ 64)
    (hstart : startDegrees.isFinite = true) (hend : endDegrees.isFinite = true) {t : Float}
    (ht : t ∈ tess.arcAngles startDegrees endDegrees) :
    t.isFinite = true := by
  obtain ⟨i, hi, rfl⟩ := List.mem_map.1 ht
  rw [List.mem_range, Nat.lt_succ_iff] at hi
  obtain ⟨hfinite, hbound⟩ := toRat_radians hstart
  obtain ⟨hsweep, hsweepBound⟩ := toRat_arcSweep hstart hend
  obtain ⟨hfraction, -⟩ := toRat_fraction hsegments hi
  have hpart : |toRat (arcEnd startDegrees endDegrees - Scalar.radians startDegrees) *
      toRat (tess.fraction i)| ≤ 2 ^ (1021 : ℤ) := by
    rw [abs_mul, abs_of_nonneg (toRat_fraction_nonneg hsegments hi)]
    exact (mul_le_of_le_one_right (abs_nonneg _) (toRat_fraction_le_one hsegments hi)).trans
      hsweepBound
  obtain ⟨hproduct, hproductBound⟩ :=
    (isNearest_mul hsweep hfraction).isFinite_of_abs_le (by norm_num) (by norm_num) hpart
  have hstartBound :=
    hbound.trans (zpow_le_zpow_right₀ (by norm_num) (by norm_num : (1019 : ℤ) ≤ 1021))
  exact ((isNearest_add hfinite hproduct).isFinite_of_abs_le (by norm_num) (by norm_num)
    (abs_add_le_two_zpow (l := 1022) rfl hstartBound hproductBound)).1

theorem isSweep_arcAngles (hsegments : tess.segments < 2 ^ 64)
    (hstart : startDegrees.isFinite = true) (hend : endDegrees.isFinite = true) :
    IsSweep (tess.arcAngles startDegrees endDegrees) (Scalar.radians startDegrees)
      (arcEnd startDegrees endDegrees) :=
  isSweep_parameters hsegments (toRat_radians hstart).1 (toRat_arcEnd startDegrees hend).1
    (toRat_arcSweep hstart hend).1

end Arcs

/-- Where an ellipse ends: at the end, or one turn later if that does not lie behind the start. -/
def ellipseEnd (start finish : Float) : Float :=
  if finish ≤ start then finish + Scalar.tau else finish

/-- The parameters at which an ellipse takes its points; a full turn leaves the last out and closes
the polyline. -/
def ellipseParameters (tess : Tessellation) (start finish : Float) : List Float :=
  let (sweep, fullTurn) := ellipseSweep start finish
  tess.parameters start sweep (if fullTurn then tess.segments else tess.segments + 1)

theorem ellipse_eq (tess : Tessellation) (center axis : Point Float) (ratio start finish : Float) :
    let major := Scalar.sqrt (axis.x * axis.x + axis.y * axis.y)
    let angle := Scalar.atan2 axis.y axis.x
    let points := (tess.ellipseParameters start finish).map
      (ellipsePoint center major (major * ratio) (Scalar.sin angle) (Scalar.cos angle))
    tess.ellipse center axis ratio start finish =
      if (ellipseSweep start finish).2 then Polyline.closed points else ⟨points⟩ := by
  unfold ellipse ellipseParameters
  rcases ellipseSweep start finish with ⟨sweep, fullTurn⟩
  cases fullTurn <;> rfl

/-- Values that go from a start once round and stop before they are back: the end is one turn behind
the start. -/
structure IsTurn (values : List Float) (start finish : Float) : Prop where
  first : values.head?.map toRat = some (toRat start)
  turn : |toRat finish - toRat start - toRat Scalar.tau| < 1 / 2 ^ 29
  ascends : values.Pairwise (· ≤ ·)

section Ellipses

variable {start finish : Float}

theorem isFinite_ellipseEnd (start : Float) (hfinish : finish.isFinite = true) :
    (ellipseEnd start finish).isFinite = true := by
  unfold ellipseEnd
  split
  · exact isFinite_add hfinish toRat_tau.1
      (abs_toRat_tau_le.trans (zpow_le_zpow_right₀ (by norm_num) (by norm_num)))
  · exact hfinish

/-- The end of an ellipse is not before its start exactly if the start is at most one turn behind
the end. -/
theorem le_ellipseEnd_iff (hstart : start.isFinite = true) (hfinish : finish.isFinite = true) :
    start ≤ ellipseEnd start finish ↔ start ≤ finish + Scalar.tau := by
  unfold ellipseEnd
  split
  · rfl
  · rename_i hnot
    rw [le_iff_toRat_le hfinish hstart, not_le] at hnot
    have hle := (le_iff_toRat_le hstart hfinish).2 hnot.le
    exact iff_of_true hle (le_add_tau hstart hfinish hle)

/-- What counts as a full turn has a sweep, and that is one turn up to the tolerance. -/
theorem abs_sweep_sub_tau_lt (hstart : start.isFinite = true) (hfinish : finish.isFinite = true)
    (hfull : (ellipseSweep start finish).2 = true) :
    (ellipseEnd start finish - start).isFinite = true ∧
      |toRat (ellipseEnd start finish) - toRat start - toRat Scalar.tau| < 1 / 2 ^ 29 := by
  change isNegligible Scalar.turnTolerance (ellipseEnd start finish - start - Scalar.tau) =
    true at hfull
  rw [isNegligible, Bool.and_eq_true, decide_eq_true_iff, decide_eq_true_iff] at hfull
  obtain ⟨hlow, hhigh⟩ := hfull
  have hfinite := isFinite_of_lt_of_lt hlow hhigh
  obtain ⟨hsweep, htau⟩ := isFinite_of_sub hfinite
  have hread : Binary64.ofFloat Scalar.turnTolerance = .finite false 4835703278458517 (-82) := by
    decide +kernel
  have hread' : Binary64.ofFloat (-Scalar.turnTolerance) = .finite true 4835703278458517 (-82) := by
    decide +kernel
  have hnear : |nearest (toRat (ellipseEnd start finish - start) - toRat Scalar.tau) - 0| <
      1 / 2 ^ 29 := by
    rw [lt_iff_toRat_lt (Binary64.isFinite_iff.2 ⟨_, _, _, hread'⟩) hfinite,
      toRat_of_ofFloat hread'] at hlow
    rw [lt_iff_toRat_lt hfinite (Binary64.isFinite_iff.2 ⟨_, _, _, hread⟩), toRat_of_ofFloat hread]
      at hhigh
    rw [sub_zero, ← (isNearest_sub hsweep htau).toRat_eq hfinite]
    norm_num [withSign, Binary64.magnitude] at hlow hhigh ⊢
    exact abs_lt.2 ⟨by linarith, by linarith⟩
  have hsweepNear : |toRat (ellipseEnd start finish - start) - toRat Scalar.tau| < 1 / 2 ^ 29 := by
    rw [← sub_zero (_ - toRat Scalar.tau)]
    refine abs_sub_lt_of_abs_nearest_sub_lt ⟨-1, -29, ?_⟩ ⟨1, -29, ?_⟩ hnear <;> norm_num
  -- The turn is a double with bits to spare for the tolerance.
  refine ⟨hsweep, abs_sub_lt_of_abs_nearest_sub_lt ⟨7074237752028440 - 2 ^ 21, -50, ?_⟩
    ⟨7074237752028440 + 2 ^ 21, -50, ?_⟩ ?_⟩
  · rw [toRat_tau.2]
    norm_num
  · rw [toRat_tau.2]
    norm_num
  · rwa [← (isNearest_sub (isFinite_ellipseEnd start hfinish) hstart).toRat_eq hsweep]

theorem ellipseParameters_of_turn (tess : Tessellation)
    (hfull : (ellipseSweep start finish).2 = true) :
    tess.ellipseParameters start finish =
      tess.parameters start (ellipseEnd start finish - start) tess.segments :=
  congrArg (tess.parameters start _) (if_pos hfull)

theorem ellipseParameters_of_part (tess : Tessellation)
    (hpart : (ellipseSweep start finish).2 = false) :
    tess.ellipseParameters start finish =
      tess.parameters start (ellipseEnd start finish - start) (tess.segments + 1) :=
  congrArg (tess.parameters start _) (if_neg (Bool.eq_false_iff.1 hpart))

theorem isTurn_ellipseParameters (hsegments : tess.segments < 2 ^ 64)
    (hstart : start.isFinite = true) (hfinish : finish.isFinite = true)
    (hfull : (ellipseSweep start finish).2 = true) :
    IsTurn (tess.ellipseParameters start finish) start (ellipseEnd start finish) := by
  obtain ⟨hsweep, hturn⟩ := abs_sweep_sub_tau_lt hstart hfinish hfull
  rw [ellipseParameters_of_turn tess hfull]
  refine ⟨head?_parameters hsegments hstart hsweep tess.segments_pos, hturn,
    pairwise_le_parameters hsegments hstart hsweep ?_ (Nat.le_succ _)⟩
  rw [(isNearest_sub (isFinite_ellipseEnd start hfinish) hstart).toRat_eq hsweep]
  rw [toRat_tau.2, abs_sub_lt_iff] at hturn
  exact isDouble_zero.le_nearest (by linarith)

theorem isSweep_ellipseParameters (hsegments : tess.segments < 2 ^ 64)
    (hstart : start.isFinite = true) (hfinish : finish.isFinite = true)
    (hsweep : (ellipseEnd start finish - start).isFinite = true)
    (hpart : (ellipseSweep start finish).2 = false) :
    IsSweep (tess.ellipseParameters start finish) start (ellipseEnd start finish) := by
  rw [ellipseParameters_of_part tess hpart]
  exact isSweep_parameters hsegments hstart (isFinite_ellipseEnd start hfinish) hsweep

/-- The parameters of an ellipse ascend exactly if its end is not before its start and their
difference is a double. -/
theorem pairwise_ellipseParameters_iff (hsegments : tess.segments < 2 ^ 64)
    (hstart : start.isFinite = true) (hfinish : finish.isFinite = true) :
    (tess.ellipseParameters start finish).Pairwise (· ≤ ·) ↔
      start ≤ ellipseEnd start finish ∧ (ellipseEnd start finish - start).isFinite = true := by
  have hend := isFinite_ellipseEnd start hfinish
  cases hfull : (ellipseSweep start finish).2 with
  | true =>
    have hturn := isTurn_ellipseParameters hsegments hstart hfinish hfull
    obtain ⟨hsweep, hlt⟩ := abs_sweep_sub_tau_lt hstart hfinish hfull
    rw [toRat_tau.2, abs_sub_lt_iff] at hlt
    exact iff_of_true hturn.ascends ⟨(le_iff_toRat_le hstart hend).2 (by linarith), hsweep⟩
  | false =>
    cases hsweep : (ellipseEnd start finish - start).isFinite with
    | true =>
      rw [(isSweep_ellipseParameters hsegments hstart hfinish hsweep hfull).ascends_iff,
        and_iff_left rfl]
    | false =>
      have hinfinite := (isNearest_sub hend hstart).ofFloat_eq hsweep
      refine iff_of_false ?_ fun h => Bool.false_ne_true h.2
      rw [ellipseParameters_of_part tess hfull]
      exact not_pairwise_parameters hsegments hinfinite

end Ellipses

/-- The angles of an arc are finite and go from its start to its end or one turn later, and the
parameters of an ellipse likewise, as far as that is not beyond the doubles. They ascend exactly if
the start is at most one turn behind the end. -/
theorem ascending_iff_within_turn (tess : Tessellation) (hsegments : tess.segments < 2 ^ 64) :
    (∀ startDegrees endDegrees : Float, startDegrees.isFinite = true → endDegrees.isFinite = true →
      let angles := tess.arcAngles startDegrees endDegrees
      (∀ t ∈ angles, t.isFinite = true) ∧
        IsSweep angles (Scalar.radians startDegrees) (arcEnd startDegrees endDegrees) ∧
        (angles.Pairwise (· ≤ ·) ↔ Scalar.radians startDegrees ≤
          Scalar.radians endDegrees + Scalar.tau)) ∧
    ∀ start finish : Float, start.isFinite = true → finish.isFinite = true →
      let parameters := tess.ellipseParameters start finish
      let sweep := ellipseEnd start finish - start
      (parameters.Pairwise (· ≤ ·) ↔ start ≤ finish + Scalar.tau ∧ sweep.isFinite = true) ∧
        (sweep.isFinite = true →
          if (ellipseSweep start finish).2 then IsTurn parameters start (ellipseEnd start finish)
          else IsSweep parameters start (ellipseEnd start finish)) := by
  constructor
  · intro startDegrees endDegrees hstart hend angles
    have hsweep := isSweep_arcAngles hsegments hstart hend
    refine ⟨fun t ht => isFinite_arcAngle hsegments hstart hend ht, hsweep, ?_⟩
    rw [hsweep.ascends_iff, le_arcEnd_iff hstart hend]
  · intro start finish hstart hfinish parameters sweep
    refine ⟨?_, fun hsweep => ?_⟩
    · rw [pairwise_ellipseParameters_iff hsegments hstart hfinish, le_ellipseEnd_iff hstart hfinish]
    · cases hfull : (ellipseSweep start finish).2 with
      | true => exact isTurn_ellipseParameters hsegments hstart hfinish hfull
      | false => exact isSweep_ellipseParameters hsegments hstart hfinish hsweep hfull

/-- From 350 degrees to 10 an arc goes through zero, and so does an ellipse between these angles in
radians. -/
theorem ascending_through_zero :
    ((ofNat 3).arcAngles (350 : Float) 10).Pairwise (· ≤ ·) ∧
      ((ofNat 3).ellipseParameters 6.1086523819801535 0.17453292519943295).Pairwise (· ≤ ·) := by
  obtain ⟨harc, hellipse⟩ := ascending_iff_within_turn (ofNat 3) (by decide)
  exact ⟨(harc 350 10 (by decide +kernel) (by decide +kernel)).2.2.2 (by decide +kernel),
    (hellipse _ _ (by decide +kernel) (by decide +kernel)).1.2 (by decide +kernel)⟩

/-- From two turns to a quarter of one, one turn more leads only to a turn and a quarter. -/
theorem exists_clockwise_arc :
    (∃ startDegrees endDegrees : Float, startDegrees.isFinite = true ∧ endDegrees.isFinite = true ∧
      ¬((ofNat 3).arcAngles startDegrees endDegrees).Pairwise (· ≤ ·)) ∧
    ∃ start finish : Float, start.isFinite = true ∧ finish.isFinite = true ∧
      ¬((ofNat 3).ellipseParameters start finish).Pairwise (· ≤ ·) :=
  ⟨⟨720, 90, by decide +kernel, by decide +kernel, by decide +kernel⟩,
    12.566370614359172, 1.5707963267948966, by decide +kernel, by decide +kernel, by decide +kernel⟩

end Tessellation

end Turnery
