import Turnery.Playback.Interval
import Turnery.Proofs.Number.Arithmetic

/-!
# Speed and interval

The interval between two positions is a quotient that is rounded twice: to a double by the division,
and to nanoseconds by the conversion, which gives the longest interval where the quotient is too
long or infinite. `intervalFor_eq` says so in exact arithmetic. Neither rounding turns the order
around, nor does the cap, so that a higher speed never makes the interval longer
(`intervalBy_antitone`).
-/

namespace Turnery.Playback

open Number

/-- Seconds as nanoseconds: the nearest number of them, a tie going to the even one, but no more
than the longest interval has. -/
def cappedNanos (q : ℚ) : ℕ :=
  min (nearestNat .toEven (q * 10 ^ 9)) longest

/-- The interval that some seconds last at a speed, the quotient being rounded by a rule. -/
def intervalBy (rule : ℚ → ℚ) (total speed : ℚ) : ℕ :=
  cappedNanos (rule (total / speed))

/-- The seconds of an interval as doubles count them: the whole ones and the fraction are rounded,
and so is their sum. -/
def roundedSeconds (nanos : ℕ) : ℚ :=
  nearest (nearest (nanos / nanosPerSecond : ℕ) + nearest ((nanos % nanosPerSecond : ℕ) / 10 ^ 9))

theorem cappedNanos_mono : Monotone cappedNanos := fun _ _ h =>
  min_le_min_right _ (nearestNat_mono _ (mul_le_mul_of_nonneg_right h (by norm_num)))

theorem cappedNanos_le_longest (q : ℚ) : cappedNanos q ≤ longest :=
  min_le_right _ _

theorem intervalBy_antitone {rule : ℚ → ℚ} (hrule : Monotone rule) {total s t : ℚ}
    (htotal : 0 ≤ total) (hs : 0 < s) (hst : s ≤ t) :
    intervalBy rule total t ≤ intervalBy rule total s :=
  cappedNanos_mono (hrule (div_le_div_of_nonneg_left htotal hs hst))

/-- What is beyond the largest double is beyond the longest interval. -/
theorem cappedNanos_of_infinite {q : ℚ} (h : 2 ^ 1024 ≤ q) : cappedNanos q = longest := by
  refine min_eq_right (le_nearestNat _ ?_)
  have hlongest : (longest : ℚ) ≤ 2 ^ 64 * 10 ^ 9 := by
    exact_mod_cast (by decide : longest ≤ 2 ^ 64 * 10 ^ 9)
  have hpower : (2 : ℚ) ^ 64 ≤ 2 ^ 1024 := pow_le_pow_right₀ (by norm_num) (by norm_num)
  exact hlongest.trans (mul_le_mul_of_nonneg_right (hpower.trans h) (by norm_num))

/-- A double that is not negative is read without its sign, which only a zero can have. -/
theorem exists_unsigned {x : Float} (hx : x.isFinite = true) (h : 0 ≤ toRat x) :
    ∃ negative mantissa exponent, Binary64.ofFloat x = .finite negative mantissa exponent ∧
      (negative && mantissa != 0) = false ∧ Binary64.magnitude mantissa exponent = toRat x := by
  obtain ⟨negative, mantissa, exponent, hread⟩ := Binary64.isFinite_iff.1 hx
  have hvalue := toRat_of_ofFloat hread
  cases negative with
  | false => exact ⟨false, mantissa, exponent, hread, rfl, hvalue.symm⟩
  | true =>
    rw [withSign, if_pos rfl] at hvalue
    have hnone : Binary64.magnitude mantissa exponent = 0 := by
      have hmagnitude := Binary64.magnitude_nonneg mantissa exponent
      linarith
    have hzero : mantissa = 0 := by
      rw [Binary64.magnitude, mul_eq_zero] at hnone
      exact_mod_cast hnone.resolve_right (by positivity)
    exact ⟨true, mantissa, exponent, hread, by rw [hzero]; rfl, by rw [hvalue, hnone, neg_zero]⟩

/-- A double that stands for seconds which are not negative is converted to the nanoseconds of
these. -/
theorem getD_ofSeconds? {x : Float} {q : ℚ} (hx : IsNearest x q) (hq : 0 ≤ q) :
    (ofSeconds? x).getD longest = cappedNanos (nearest q) := by
  cases hfinite : x.isFinite with
  | false =>
    have hlarge : 2 ^ 1024 ≤ nearest q := by
      have hiff := hx.isFinite_iff
      rw [hfinite, abs_of_nonneg hq, ← nearest_of_nonneg hq] at hiff
      exact not_lt.1 fun hlt => Bool.false_ne_true (hiff.2 hlt)
    rw [cappedNanos_of_infinite hlarge, ofSeconds?, hx.ofFloat_eq hfinite]
    rfl
  | true =>
    have hvalue := hx.toRat_eq hfinite
    obtain ⟨negative, mantissa, exponent, hread, hsign, hmagnitude⟩ :=
      exists_unsigned hfinite (by rw [hvalue]; exact isDouble_zero.le_nearest hq)
    have hnanos : roundDiv .toEven (Binary64.numerator mantissa exponent * nanosPerSecond)
        (Binary64.denominator exponent) = nearestNat .toEven (nearest q * 10 ^ 9) := by
      rw [← hvalue, ← hmagnitude]
      exact nearestUnits_eq .toEven 9 mantissa exponent
    simp only [ofSeconds?, hread, hsign, hnanos, Bool.false_eq_true, if_false]
    split
    · rename_i hfits
      exact (min_eq_left hfits).symm
    · rename_i hlong
      exact (min_eq_right (not_le.1 hlong).le).symm

theorem toRat_billion : (1e9 : Float).isFinite = true ∧ toRat 1e9 = 10 ^ 9 := by
  have hread : Binary64.ofFloat 1e9 = .finite false (5 ^ 9 * 2 ^ 32) (-23) := by decide +kernel
  refine ⟨Binary64.isFinite_iff.2 ⟨_, _, _, hread⟩, ?_⟩
  rw [toRat_of_ofFloat hread, Binary64.magnitude]
  norm_num [withSign]

/-- The nanoseconds behind the whole seconds make a fraction. -/
theorem toRat_fraction {nanos : ℕ} (h : nanos < nanosPerSecond) :
    (Float.ofNat nanos / 1e9).isFinite = true ∧
      toRat (Float.ofNat nanos / 1e9) = nearest (nanos / 10 ^ 9) ∧
      0 ≤ nearest (nanos / 10 ^ 9) ∧ nearest (nanos / 10 ^ 9) ≤ 1 := by
  have hbillion : nanos < 10 ^ 9 := h
  obtain ⟨hfinite, hvalue⟩ := toRat_ofNat (n := nanos) (by omega)
  have hdouble : IsDouble (nanos : ℚ) :=
    ⟨nanos, 0, by rw [Nat.abs_cast]; omega, by norm_num, by simp⟩
  rw [hdouble.nearest_eq] at hvalue
  have hquotient := isNearest_div hfinite toRat_billion.1 (by rw [toRat_billion.2]; norm_num)
  rw [hvalue, toRat_billion.2] at hquotient
  have hnonneg : (0 : ℚ) ≤ nanos / 10 ^ 9 := by positivity
  have hle : (nanos : ℚ) / 10 ^ 9 ≤ 1 := by
    rw [div_le_one (by norm_num)]
    exact_mod_cast hbillion.le
  obtain ⟨hfits, -⟩ := hquotient.isFinite_of_abs_le (k := 0) (by norm_num) (by norm_num)
    (by rwa [abs_of_nonneg hnonneg, zpow_zero])
  exact ⟨hfits, hquotient.toRat_eq hfits, isDouble_zero.le_nearest hnonneg,
    isDouble_one.nearest_le hle⟩

/-- The seconds of an interval are a double that is not negative. -/
theorem toRat_seconds {nanos : ℕ} (h : nanos ≤ longest) :
    (seconds nanos).isFinite = true ∧ toRat (seconds nanos) = roundedSeconds nanos ∧
      0 ≤ roundedSeconds nanos := by
  have hpositive : 0 < nanosPerSecond := by decide
  have hwhole : nanos / nanosPerSecond < 2 ^ 64 := by
    rw [Nat.div_lt_iff_lt_mul hpositive]
    exact h.trans_lt (by decide)
  obtain ⟨hfraction, hrest, hrestNonneg, hrestLe⟩ := toRat_fraction (Nat.mod_lt nanos hpositive)
  obtain ⟨hfinite, hvalue⟩ := toRat_ofNat hwhole
  have hwholeNonneg : 0 ≤ nearest (nanos / nanosPerSecond : ℕ) :=
    isDouble_zero.le_nearest (Nat.cast_nonneg _)
  have hwholeLe : nearest (nanos / nanosPerSecond : ℕ) ≤ 2 ^ (64 : ℤ) :=
    (isDouble_two_zpow (by norm_num)).nearest_le (by exact_mod_cast hwhole.le)
  have hsum := isNearest_add hfinite hfraction
  rw [hvalue, hrest] at hsum
  have hnonneg := add_nonneg hwholeNonneg hrestNonneg
  obtain ⟨hfits, -⟩ := hsum.isFinite_of_abs_le (k := 65) (by norm_num) (by norm_num) (by
    rw [abs_of_nonneg hnonneg]
    norm_num at hwholeLe ⊢
    linarith)
  exact ⟨hfits, hsum.toRat_eq hfits, isDouble_zero.le_nearest hnonneg⟩

variable {base : ℕ} {speed : Float}

/-- A speed is in effect if it is finite and positive. -/
theorem effectiveSpeed_of_pos (hfinite : speed.isFinite = true) (hpos : 0 < speed) :
    effectiveSpeed speed = speed := by
  rw [effectiveSpeed, hfinite, decide_eq_true hpos]
  rfl

theorem effectiveSpeed_of_not_pos (h : speed.isFinite = false ∨ speed ≤ 0) :
    effectiveSpeed speed = 1 := by
  refine if_neg fun hboth => ?_
  obtain ⟨hfinite, hpos⟩ := Bool.and_eq_true_iff.1 hboth
  rcases h with h | h
  · rw [h] at hfinite
    cases hfinite
  · rw [decide_eq_true_iff, pos_iff_toRat_pos hfinite] at hpos
    exact absurd ((nonpos_iff_toRat_nonpos hfinite).1 h) (not_le.2 hpos)

theorem toRat_effectiveSpeed_pos (speed : Float) :
    (effectiveSpeed speed).isFinite = true ∧ 0 < toRat (effectiveSpeed speed) := by
  unfold effectiveSpeed
  split
  · rename_i hboth
    obtain ⟨hfinite, hpos⟩ := Bool.and_eq_true_iff.1 hboth
    exact ⟨hfinite, (pos_iff_toRat_pos hfinite).1 (of_decide_eq_true hpos)⟩
  · obtain ⟨hfinite, hvalue⟩ := toRat_ofNat (n := 1) (by norm_num)
    rw [Nat.cast_one, isDouble_one.nearest_eq] at hvalue
    exact ⟨hfinite, hvalue.symm ▸ one_pos⟩

/-- The interval is the quotient of seconds and speed, rounded to a double and then to
nanoseconds. -/
theorem intervalFor_eq (hbase : base ≤ longest) (speed : Float) :
    intervalFor base speed = intervalBy nearest (roundedSeconds base)
      (toRat (effectiveSpeed speed)) := by
  obtain ⟨hseconds, hvalue, hnonneg⟩ := toRat_seconds hbase
  obtain ⟨hspeed, hpos⟩ := toRat_effectiveSpeed_pos speed
  have hquotient := isNearest_div hseconds hspeed hpos.ne'
  rw [hvalue] at hquotient
  exact getD_ofSeconds? hquotient (div_nonneg hnonneg hpos.le)

/-- At every speed there is an interval. At a positive and finite one it is the quotient of the base
interval and the speed, rounded to a double and to nanoseconds and capped at the longest interval;
every other speed counts as one. Whichever rule that keeps the order the quotient is rounded by, a
higher speed does not make the interval longer; so it is for doubles. -/
theorem intervalFor_quotient_antitone (hbase : base ≤ longest) :
    (∀ speed, intervalFor base speed ≤ longest) ∧
      (∀ speed : Float, speed.isFinite = true → 0 < speed →
        intervalFor base speed = intervalBy nearest (roundedSeconds base) (toRat speed)) ∧
      (∀ rule : ℚ → ℚ, Monotone rule → ∀ total s t : ℚ, 0 ≤ total → 0 < s → s ≤ t →
        intervalBy rule total t ≤ intervalBy rule total s) ∧
      (∀ s t : Float, s.isFinite = true → t.isFinite = true → 0 < s → s ≤ t →
        intervalFor base t ≤ intervalFor base s) ∧
      ∀ speed : Float, speed.isFinite = false ∨ speed ≤ 0 →
        intervalFor base speed = intervalFor base 1 := by
  have hquotient : ∀ speed : Float, speed.isFinite = true → 0 < speed →
      intervalFor base speed = intervalBy nearest (roundedSeconds base) (toRat speed) := by
    intro speed hfinite hpos
    rw [intervalFor_eq hbase, effectiveSpeed_of_pos hfinite hpos]
  refine ⟨?_, hquotient, ?_, ?_, ?_⟩
  · intro speed
    rw [intervalFor_eq hbase]
    exact cappedNanos_le_longest _
  · intro rule hrule total s t htotal hs hst
    exact intervalBy_antitone hrule htotal hs hst
  · intro s t hs ht hpos hst
    have hpos' := (pos_iff_toRat_pos hs).1 hpos
    have hst' := (le_iff_toRat_le hs ht).1 hst
    have htpos := (pos_iff_toRat_pos ht).2 (hpos'.trans_le hst')
    rw [hquotient s hs hpos, hquotient t ht htpos]
    exact intervalBy_antitone nearest_mono (toRat_seconds hbase).2.2 hpos' hst'
  · intro speed hspeed
    rw [intervalFor, intervalFor, effectiveSpeed_of_not_pos hspeed]
    rfl

/-- A tenth of a second at double speed, at the least positive speed, at a very high one, and at
none. -/
theorem intervalFor_quotient_antitone_tenth :
    10 ^ 8 ≤ longest ∧
      (intervalFor (10 ^ 8) 2 = 5 * 10 ^ 7 ∧
        intervalFor (10 ^ 8) 2 = intervalBy nearest (roundedSeconds (10 ^ 8)) (toRat 2)) ∧
      (intervalFor (10 ^ 8) 5e-324 = longest ∧ intervalFor (10 ^ 8) 5e-324 ≤ longest) ∧
      (intervalFor (10 ^ 8) 1e300 = 0 ∧ intervalFor (10 ^ 8) 1e300 ≤ intervalFor (10 ^ 8) 5e-324) ∧
      intervalBy id (1 / 10) 2 ≤ intervalBy id (1 / 10) (1 / 2) ∧
      (intervalFor (10 ^ 8) (0 / 0) = 10 ^ 8 ∧ intervalFor (10 ^ 8) (0 / 0) =
        intervalFor (10 ^ 8) 1) := by
  have hbase : 10 ^ 8 ≤ longest := by decide
  obtain ⟨hcapped, hquotient, hrule, hfaster, hinvalid⟩ := intervalFor_quotient_antitone hbase
  refine ⟨hbase, ⟨by decide +kernel, ?_⟩, ⟨by decide +kernel, hcapped _⟩,
    ⟨by decide +kernel, ?_⟩, ?_, ?_⟩
  · exact hquotient 2 (by decide +kernel) (by decide +kernel)
  · exact hfaster _ _ (by decide +kernel) (by decide +kernel) (by decide +kernel)
      (by decide +kernel)
  · exact hrule id monotone_id _ _ _ (by norm_num) (by norm_num) (by norm_num)
  · exact ⟨by decide +kernel, hinvalid _ (.inl (by decide +kernel))⟩

end Turnery.Playback
