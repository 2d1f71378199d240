import Turnery.Proofs.Number.Rounded
import Turnery.Proofs.Number.Stored

/-!
# The nearest double with its sign

`nearest` takes a rational to the nearest double, as a rational again and without regard to the
largest double. It leaves doubles as they are (`IsDouble.nearest_eq`), keeps the order
(`nearest_mono`), and no double is nearer to the rational (`abs_nearest_sub_le`).
-/

namespace Turnery.Number

open Binary64 (magnitude)

/-- The double nearest to a rational. -/
def nearest (q : ℚ) : ℚ :=
  withSign (q < 0) (rounded |q|)

/-- A mantissa of 53 bits with a sign, and an exponent from the least one on. -/
def IsDouble (q : ℚ) : Prop :=
  ∃ n e : ℤ, |n| < 2 ^ 53 ∧ -1074 ≤ e ∧ q = n * 2 ^ e

variable {q r : ℚ}

theorem nearest_of_nonneg (h : 0 ≤ q) : nearest q = rounded q := by
  rw [nearest, decide_eq_false (not_lt.2 h), abs_of_nonneg h]
  rfl

theorem nearest_of_nonpos (h : q ≤ 0) : nearest q = -rounded (-q) := by
  rcases h.lt_or_eq with hneg | rfl
  · rw [nearest, decide_eq_true hneg, abs_of_neg hneg]
    rfl
  · rw [nearest_of_nonneg le_rfl, neg_zero, rounded_zero, neg_zero]

theorem nearest_neg (q : ℚ) : nearest (-q) = -nearest q := by
  rcases le_total 0 q with h | h
  · rw [nearest_of_nonpos (neg_nonpos.2 h), neg_neg, nearest_of_nonneg h]
  · rw [nearest_of_nonneg (neg_nonneg.2 h), nearest_of_nonpos h, neg_neg]

@[simp] theorem nearest_zero : nearest 0 = 0 := by
  rw [nearest_of_nonneg le_rfl, rounded_zero]

theorem rounded_nonneg (q : ℚ) : 0 ≤ rounded q :=
  Binary64.magnitude_nonneg _ _

theorem abs_nearest (q : ℚ) : |nearest q| = rounded |q| := by
  rw [nearest, abs_withSign, abs_of_nonneg (rounded_nonneg _)]

theorem isDouble_zero : IsDouble 0 :=
  ⟨0, 0, by norm_num, by norm_num, by norm_num⟩

theorem IsDouble.neg (h : IsDouble q) : IsDouble (-q) := by
  obtain ⟨n, e, hn, he, rfl⟩ := h
  exact ⟨-n, e, by rwa [abs_neg], he, by push_cast; ring⟩

theorem isDouble_two_zpow {e : ℤ} (he : -1074 ≤ e) : IsDouble (2 ^ e) :=
  ⟨1, e, by norm_num, he, by norm_num⟩

theorem isDouble_one : IsDouble 1 := by
  simpa using isDouble_two_zpow (e := 0) (by norm_num)

theorem isDouble_magnitude {mantissa : ℕ} {exponent : ℤ} (hlt : mantissa < 2 ^ 53)
    (hleast : -1074 ≤ exponent) :
    IsDouble (magnitude mantissa exponent) :=
  ⟨mantissa, exponent, by rw [Nat.abs_cast]; exact_mod_cast hlt,
    hleast, by rw [magnitude, Int.cast_natCast]⟩

theorem isDouble_withSign (negative : Bool) (h : IsDouble q) : IsDouble (withSign negative q) := by
  cases negative with
  | false => exact h
  | true => exact h.neg

/-- What rounding leads to is a double. -/
theorem isDouble_rounded (hq : 0 ≤ q) : IsDouble (rounded q) := by
  have hleast : -1074 ≤ spacing q := le_max_right _ _
  rcases (nearestMultiple_le hq).lt_or_eq with hlt | hcarry
  · exact isDouble_magnitude hlt hleast
  · have hpower : rounded q = 2 ^ (53 + spacing q) := by
      rw [rounded, hcarry, magnitude, zpow_add₀ two_ne_zero]
      norm_num
    rw [hpower]
    exact isDouble_two_zpow (by omega)

theorem isDouble_nearest (q : ℚ) : IsDouble (nearest q) :=
  isDouble_withSign _ (isDouble_rounded (abs_nonneg q))

/-- The finite doubles are doubles. -/
theorem isDouble_toRat (x : Float) : IsDouble (toRat x) := by
  cases hx : Binary64.ofFloat x with
  | nan | infinite =>
    simp only [toRat, hx]
    exact isDouble_zero
  | finite negative mantissa exponent =>
    rw [toRat_of_ofFloat hx]
    refine isDouble_withSign negative ?_
    rcases Binary64.isStored_of_ofFloat hx with ⟨rfl, rfl⟩ | hstored
    · exact isDouble_magnitude (by norm_num) (by norm_num)
    · exact isDouble_magnitude hstored.lt hstored.least

/-- A double is a whole multiple of a power of two, or has a finer spacing. -/
theorem IsDouble.multiple_or_lt (h : IsDouble r) (t : ℤ) :
    (∃ k : ℤ, r = k * 2 ^ t) ∨ (-1074 < t ∧ |r| < 2 ^ (52 + t)) := by
  obtain ⟨n, e, hn, he, rfl⟩ := h
  rcases le_or_gt t e with hte | hte
  · obtain ⟨k, rfl⟩ := Int.le.dest hte
    refine .inl ⟨n * 2 ^ k, ?_⟩
    rw [zpow_add₀ two_ne_zero, zpow_natCast]
    push_cast
    ring
  · refine .inr ⟨he.trans_lt hte, ?_⟩
    have hstep : (0 : ℚ) < 2 ^ e := by positivity
    have hn' : |(n : ℚ)| < 2 ^ 53 := by exact_mod_cast hn
    rw [abs_mul, abs_of_pos hstep]
    calc |(n : ℚ)| * 2 ^ e < 2 ^ 53 * 2 ^ e := mul_lt_mul_of_pos_right hn' hstep
      _ = 2 ^ (53 + e) := by rw [zpow_add₀ two_ne_zero]; norm_num
      _ ≤ 2 ^ (52 + t) := zpow_le_zpow_right₀ (by norm_num) (by omega)

/-- No whole number is nearer than the nearest natural one. -/
theorem abs_nearestNat_sub_le_abs (tie : Tie) (hq : 0 ≤ q) (k : ℤ) :
    |(nearestNat tie q : ℚ) - q| ≤ |k - q| := by
  have hnear := abs_nearestNat_sub_le tie hq
  by_cases hk : k = nearestNat tie q
  · rw [hk, Int.cast_natCast]
  · rw [← Int.cast_natCast] at hnear ⊢
    exact hnear.trans (half_le_abs_sub_of_ne hnear hk)

theorem abs_rounded_sub_le_abs (hq : 0 ≤ q) (k : ℤ) :
    |rounded q - q| ≤ |k * 2 ^ spacing q - q| := by
  have hstep : (0 : ℚ) < 2 ^ spacing q := by positivity
  have hscaled (x : ℚ) : |x * 2 ^ spacing q - q| = |x - q / 2 ^ spacing q| * 2 ^ spacing q := by
    rw [← abs_of_pos hstep, ← abs_mul, sub_mul, abs_of_pos hstep, div_mul_cancel₀ _ hstep.ne']
  rw [rounded, magnitude, hscaled, hscaled]
  exact mul_le_mul_of_nonneg_right (abs_nearestNat_sub_le_abs _ (by positivity) k) hstep.le

theorem abs_rounded_sub_le_of_isDouble (hq : 0 ≤ q) (hr : IsDouble r) :
    |rounded q - q| ≤ |r - q| := by
  rcases hr.multiple_or_lt (spacing q) with ⟨k, rfl⟩ | ⟨hspacing, hlt⟩
  · exact abs_rounded_sub_le_abs hq k
  · -- The least number of this spacing lies between the double and the rational.
    rcases hq.lt_or_eq with hpos | rfl
    · have hlow := two_zpow_spacing_le hpos hspacing.ne'
      have hleast : ((2 ^ 52 : ℤ) : ℚ) * 2 ^ spacing q = 2 ^ (52 + spacing q) := by
        rw [zpow_add₀ two_ne_zero]
        norm_num
      have hnear := abs_rounded_sub_le_abs hq (2 ^ 52)
      rw [hleast, abs_of_nonpos (sub_nonpos.2 hlow)] at hnear
      have hr' := (abs_lt.1 hlt).2
      rw [abs_of_nonpos (by linarith : r - q ≤ 0)]
      linarith
    · rw [rounded_zero, sub_zero, abs_zero]
      exact abs_nonneg _

/-- No double is nearer to a rational than the nearest. -/
theorem abs_nearest_sub_le (q : ℚ) (hr : IsDouble r) : |nearest q - q| ≤ |r - q| := by
  rcases le_total 0 q with h | h
  · rw [nearest_of_nonneg h]
    exact abs_rounded_sub_le_of_isDouble h hr
  · have hneg := abs_rounded_sub_le_of_isDouble (neg_nonneg.2 h) hr.neg
    rwa [nearest_of_nonpos h, ← neg_sub_neg, neg_neg, abs_sub_comm, abs_sub_comm r,
      ← neg_sub_neg r q]

theorem IsDouble.nearest_eq (h : IsDouble q) : nearest q = q := by
  have hnear := abs_nearest_sub_le q h
  rw [sub_self, abs_zero] at hnear
  exact sub_eq_zero.1 (abs_nonpos_iff.1 hnear)

/-- Rounding keeps the order. -/
theorem nearest_mono : Monotone nearest := by
  intro q r hqr
  by_contra hlt
  rw [not_le] at hlt
  -- The middle of the two doubles would lie at or above the greater rational and at or below the
  -- smaller.
  have hr := sq_le_sq.2 (abs_nearest_sub_le r (isDouble_nearest q))
  have hq := sq_le_sq.2 (abs_nearest_sub_le q (isDouble_nearest r))
  have hmiddle : r ≤ q := by nlinarith
  rw [le_antisymm hqr hmiddle] at hlt
  exact lt_irrefl _ hlt

theorem IsDouble.nearest_le (hr : IsDouble r) (h : q ≤ r) : nearest q ≤ r :=
  (nearest_mono h).trans_eq hr.nearest_eq

theorem IsDouble.le_nearest (hr : IsDouble r) (h : r ≤ q) : r ≤ nearest q :=
  hr.nearest_eq.symm.trans_le (nearest_mono h)

/-- What is rounded to the inside of an interval between two doubles lies inside. -/
theorem abs_sub_lt_of_abs_nearest_sub_lt {c d : ℚ} (hlow : IsDouble (c - d))
    (hhigh : IsDouble (c + d)) (h : |nearest q - c| < d) : |q - c| < d := by
  rw [abs_sub_lt_iff] at h ⊢
  constructor
  · by_contra hle
    have habove := hhigh.le_nearest (q := q) (by linarith)
    linarith
  · by_contra hle
    have hbelow := hlow.nearest_le (q := q) (by linarith)
    linarith

/-- Doubles that differ do so by the finest spacing at least. -/
theorem IsDouble.two_zpow_le_abs_sub (hq : IsDouble q) (hr : IsDouble r) (h : q ≠ r) :
    2 ^ (-1074 : ℤ) ≤ |q - r| := by
  have hstep : (0 : ℚ) < 2 ^ (-1074 : ℤ) := by positivity
  obtain ⟨k, rfl⟩ := (hq.multiple_or_lt (-1074)).resolve_right fun h => lt_irrefl _ h.1
  obtain ⟨j, rfl⟩ := (hr.multiple_or_lt (-1074)).resolve_right fun h => lt_irrefl _ h.1
  have hne : k - j ≠ 0 := fun hkj => h (by rw [sub_eq_zero.1 hkj])
  have hone : (1 : ℚ) ≤ |(k : ℚ) - j| := by exact_mod_cast Int.one_le_abs hne
  rw [← sub_mul, abs_mul, abs_of_pos hstep]
  exact le_mul_of_one_le_left hstep.le hone

/-- Rounding moves what is not below the finest spacing by less than half of it. -/
theorem abs_nearest_sub_lt (h : 2 ^ (-1074 : ℤ) ≤ |q|) : |nearest q - q| < |q| / 2 := by
  have hpos : 0 < |q| := lt_of_lt_of_le (by positivity) h
  have hlow : (2 : ℚ) ^ Int.log 2 |q| ≤ |q| := by
    exact_mod_cast Int.zpow_log_le_self (by decide) hpos
  have hhigh : |q| < 2 ^ (Int.log 2 |q| + 1) := by
    exact_mod_cast Int.lt_zpow_succ_log_self (by decide) |q|
  have hleast : -1074 ≤ Int.log 2 |q| :=
    (Int.zpow_le_iff_le_log (by decide) hpos).1 (by exact_mod_cast h)
  rw [zpow_add_one₀ two_ne_zero] at hhigh
  -- The power of two below it is a double that is as near.
  have hpower := isDouble_two_zpow hleast
  rcases le_total 0 q with hq | hq
  · refine (abs_nearest_sub_le q hpower).trans_lt ?_
    rw [abs_of_nonneg hq] at hlow hhigh ⊢
    rw [abs_of_nonpos (by linarith)]
    linarith
  · refine (abs_nearest_sub_le q hpower.neg).trans_lt ?_
    rw [abs_of_nonpos hq] at hlow hhigh ⊢
    rw [abs_of_nonneg (by linarith)]
    linarith

/-- From a double towards a smaller one by their rounded difference, the rounded result is
smaller. -/
theorem nearest_add_nearest_sub_lt (hq : IsDouble q) (hr : IsDouble r) (h : r < q) :
    nearest (q + nearest (r - q)) < q := by
  have hmove := abs_nearest_sub_lt (hr.two_zpow_le_abs_sub hq h.ne)
  rw [abs_of_neg (sub_neg.2 h)] at hmove
  have hnear := abs_nearest_sub_le (q + nearest (r - q)) hr
  have hmiss : r - (q + nearest (r - q)) = -(nearest (r - q) - (r - q)) := by ring
  rw [hmiss, abs_neg] at hnear
  obtain ⟨-, hstep⟩ := abs_lt.1 hmove
  obtain ⟨-, hend⟩ := abs_le.1 (hnear.trans hmove.le)
  linarith

theorem abs_nearest_sub_eq (q : ℚ) : |nearest q - q| = abs (rounded |q| - |q|) := by
  rcases le_total 0 q with h | h
  · rw [nearest_of_nonneg h, abs_of_nonneg h]
  · rw [nearest_of_nonpos h, abs_of_nonpos h, ← neg_sub_neg, neg_neg, abs_sub_comm]

/-- A difference of doubles is rounded in proportion, however small it is. -/
theorem abs_nearest_sub_sub_le (hq : IsDouble q) (hr : IsDouble r) :
    |nearest (r - q) - (r - q)| ≤ |r - q| / 2 ^ 53 := by
  obtain ⟨k, hk⟩ := (hq.multiple_or_lt (-1074)).resolve_right fun h => lt_irrefl _ h.1
  obtain ⟨j, hj⟩ := (hr.multiple_or_lt (-1074)).resolve_right fun h => lt_irrefl _ h.1
  have hdifference : r - q = (j - k : ℤ) * 2 ^ (-1074 : ℤ) := by
    rw [hj, hk, ← sub_mul, Int.cast_sub]
  by_cases hshort : |j - k| < 2 ^ 53
  · have hdouble : IsDouble (r - q) := ⟨j - k, -1074, hshort, le_rfl, hdifference⟩
    rw [hdouble.nearest_eq, sub_self, abs_zero]
    positivity
  have hlong : (2 : ℚ) ^ 53 ≤ |((j - k : ℤ) : ℚ)| := by exact_mod_cast not_lt.1 hshort
  have hstep : (0 : ℚ) < 2 ^ (-1074 : ℤ) := by positivity
  have hlarge : (2 : ℚ) ^ (-1021 : ℤ) ≤ |r - q| := by
    rw [hdifference, abs_mul, abs_of_pos hstep, show (-1021 : ℤ) = 53 + -1074 by norm_num,
      zpow_add₀ two_ne_zero]
    exact mul_le_mul_of_nonneg_right (by exact_mod_cast hlong) hstep.le
  have hpos : 0 < |r - q| := lt_of_lt_of_le (by positivity) hlarge
  have hspacing : 2 ^ (52 + spacing |r - q|) ≤ |r - q| := by
    by_cases hfinest : spacing |r - q| = -1074
    · rw [hfinest]
      exact (zpow_le_zpow_right₀ (by norm_num) (by norm_num)).trans hlarge
    · exact two_zpow_spacing_le hpos hfinest
  rw [zpow_add₀ two_ne_zero] at hspacing
  rw [abs_nearest_sub_eq, le_div_iff₀ (by positivity)]
  have hnear := abs_rounded_sub_le (abs_nonneg (r - q))
  norm_num at hspacing hnear ⊢
  linarith

/-- From a double towards another by their rounded difference, the rounded result misses the other
in proportion to the difference. -/
theorem abs_nearest_add_nearest_sub_le (hq : IsDouble q) (hr : IsDouble r) :
    |nearest (q + nearest (r - q)) - r| ≤ |r - q| / 2 ^ 52 := by
  have hmove := abs_nearest_sub_sub_le hq hr
  have hnear := abs_nearest_sub_le (q + nearest (r - q)) hr
  have hmiss : r - (q + nearest (r - q)) = -(nearest (r - q) - (r - q)) := by ring
  have htriangle := abs_sub_le (nearest (q + nearest (r - q))) (q + nearest (r - q)) r
  rw [abs_sub_comm (q + nearest (r - q)) r] at htriangle
  rw [hmiss, abs_neg] at hnear htriangle
  have hhalf : |r - q| / 2 ^ 52 = |r - q| / 2 ^ 53 + |r - q| / 2 ^ 53 := by ring
  linarith

end Turnery.Number
