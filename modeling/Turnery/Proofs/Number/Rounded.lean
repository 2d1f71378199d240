import Mathlib.Algebra.Order.Field.Power
import Mathlib.Data.Int.Log
import Mathlib.Data.Rat.Floor
import Mathlib.Tactic.FieldSimp
import Mathlib.Tactic.Linarith
import Mathlib.Tactic.Positivity
import Mathlib.Tactic.Ring
import Turnery.Number.Fixed

/-!
# Rounded rationals

Rounding a quotient depends on nothing but its value: `roundDiv_eq_nearestNat`. The nearest natural
number to a rational lies within one half of it, and no other does unless the rational lies halfway
between two. What is written for a double is thus a matter of the number that the double denotes:
`nearestUnits_eq`.

Around a positive rational the doubles are the multiples of a power of two, the spacing, which
leaves 53 bits for the multiple but is never finer than `2 ^ -1074`. `rounded` is the multiple
nearest to the rational. It is computed here without regard to the largest double.
-/

namespace Turnery.Number

/-- The natural number nearest to a rational that is not negative. -/
def nearestNat (tie : Tie) (q : ℚ) : ℕ :=
  roundDiv tie q.num.toNat q.den

variable {q : ℚ}

theorem roundDiv_mul_right (tie : Tie) (num den : ℕ) {c : ℕ} (hc : 0 < c) :
    roundDiv tie (num * c) (den * c) = roundDiv tie num den := by
  have hrest : 2 * (num % den * c) = 2 * (num % den) * c := (Nat.mul_assoc 2 _ c).symm
  have hlt : den * c < 2 * (num % den) * c ↔ den < 2 * (num % den) := Nat.mul_lt_mul_right hc
  have heq : (2 * (num % den) * c == den * c) = (2 * (num % den) == den) := by
    rw [Bool.eq_iff_iff, beq_iff_eq, beq_iff_eq]
    exact Nat.mul_right_cancel_iff hc
  simp only [roundDiv, Nat.mul_div_mul_right _ _ hc, Nat.mul_mod_mul_right, hrest, hlt, heq]

/-- Equal quotients are rounded alike. -/
theorem roundDiv_congr (tie : Tie) {num den num' den' : ℕ} (hden : 0 < den) (hden' : 0 < den')
    (h : num * den' = num' * den) : roundDiv tie num den = roundDiv tie num' den' := by
  rw [← roundDiv_mul_right tie num den hden', ← roundDiv_mul_right tie num' den' hden, h,
    Nat.mul_comm den]

theorem roundDiv_eq_nearestNat (tie : Tie) (num : ℕ) {den : ℕ} (hden : 0 < den) :
    roundDiv tie num den = nearestNat tie (num / den) := by
  set q : ℚ := num / den with hq
  have hden' : (den : ℚ) ≠ 0 := by positivity
  have hnum : ((q.num.toNat : ℕ) : ℚ) = q.num := by
    have hpos : 0 ≤ q.num := Rat.num_nonneg.2 (by positivity)
    exact_mod_cast Int.toNat_of_nonneg hpos
  refine roundDiv_congr tie hden q.den_pos ?_
  have hcross : (num : ℚ) * q.den = q.num.toNat * den := by
    rw [hnum, ← Rat.mul_den_eq_num, mul_right_comm, hq, div_mul_cancel₀ _ hden']
  exact_mod_cast hcross

/-- What is rounded lies within one half of the result. -/
theorem abs_nearestNat_sub_le (tie : Tie) (hq : 0 ≤ q) : |(nearestNat tie q : ℚ) - q| ≤ 1 / 2 := by
  have hden : (0 : ℚ) < q.den := by exact_mod_cast q.den_pos
  have hnum : ((q.num.toNat : ℕ) : ℚ) = q * q.den := by
    rw [Rat.mul_den_eq_num]
    exact_mod_cast Int.toNat_of_nonneg (Rat.num_nonneg.2 hq)
  have hupper : (2 : ℚ) * (nearestNat tie q * q.den) ≤ 2 * (q * q.den) + q.den := by
    rw [← hnum]
    exact_mod_cast roundDiv_le tie q.num.toNat q.den q.den_pos
  have hlower : (2 : ℚ) * (q * q.den) ≤ 2 * (nearestNat tie q * q.den) + q.den := by
    rw [← hnum]
    exact_mod_cast le_roundDiv tie q.num.toNat q.den q.den_pos
  rw [abs_le]
  constructor
  · refine le_of_mul_le_mul_right ?_ hden
    linarith
  · refine le_of_mul_le_mul_right ?_ hden
    linarith

/-- From what lies within one half of an integer every other integer is one half away at least. -/
theorem half_le_abs_sub_of_ne {j k : ℤ} (h : |(k : ℚ) - q| ≤ 1 / 2) (hjk : j ≠ k) :
    1 / 2 ≤ |(j : ℚ) - q| := by
  have hgap : (1 : ℚ) ≤ |(j : ℚ) - k| := by exact_mod_cast Int.one_le_abs (sub_ne_zero.2 hjk)
  have htriangle := abs_sub_le (j : ℚ) q k
  rw [abs_sub_comm q (k : ℚ)] at htriangle
  linarith

/-- A natural number that is nearer than one half is the nearest. -/
theorem nearestNat_eq_of_abs_sub_lt (tie : Tie) {n : ℕ} (hq : 0 ≤ q) (h : |(n : ℚ) - q| < 1 / 2) :
    nearestNat tie q = n := by
  have hnear := abs_le.1 (abs_nearestNat_sub_le tie hq)
  have hn := abs_lt.1 h
  have hbelow : (nearestNat tie q : ℚ) < n + 1 := by linarith
  have habove : (n : ℚ) < nearestNat tie q + 1 := by linarith
  have hbelow' : nearestNat tie q < n + 1 := by exact_mod_cast hbelow
  have habove' : n < nearestNat tie q + 1 := by exact_mod_cast habove
  omega

@[simp] theorem nearestNat_natCast (tie : Tie) (n : ℕ) : nearestNat tie (n : ℚ) = n :=
  nearestNat_eq_of_abs_sub_lt tie (by positivity) (by simp)

theorem le_nearestNat (tie : Tie) {n : ℕ} (h : (n : ℚ) ≤ q) : n ≤ nearestNat tie q := by
  have hnear := abs_le.1 (abs_nearestNat_sub_le tie (le_trans (by positivity) h))
  have hlt : (n : ℚ) < nearestNat tie q + 1 := by linarith
  have hlt' : n < nearestNat tie q + 1 := by exact_mod_cast hlt
  omega

theorem nearestNat_le (tie : Tie) {n : ℕ} (hq : 0 ≤ q) (h : q ≤ n) : nearestNat tie q ≤ n := by
  have hnear := abs_le.1 (abs_nearestNat_sub_le tie hq)
  have hlt : (nearestNat tie q : ℚ) < n + 1 := by linarith
  have hlt' : nearestNat tie q < n + 1 := by exact_mod_cast hlt
  omega

theorem nearestNat_of_nonpos (tie : Tie) (h : q ≤ 0) : nearestNat tie q = 0 := by
  rw [nearestNat, Int.toNat_eq_zero.2 (Rat.num_nonpos.2 h)]
  exact roundDiv_zero tie q.den q.den_pos

/-- Rounding keeps the order. -/
theorem nearestNat_mono (tie : Tie) : Monotone (nearestNat tie) := by
  intro q r hqr
  rcases le_total q 0 with hq | hq
  · rw [nearestNat_of_nonpos tie hq]
    exact Nat.zero_le _
  by_contra hlt
  have hq' := abs_le.1 (abs_nearestNat_sub_le tie hq)
  have hr' := abs_le.1 (abs_nearestNat_sub_le tie (hq.trans hqr))
  have hgap : (nearestNat tie r : ℚ) + 1 ≤ nearestNat tie q := by exact_mod_cast not_le.1 hlt
  -- Both would lie halfway between the two numbers.
  have heq : q = r := by linarith
  rw [heq] at hlt
  exact hlt le_rfl

/-- Halfway between a number and its successor, the rule decides. -/
theorem nearestNat_tie (tie : Tie) (n : ℕ) :
    nearestNat tie ((n : ℚ) + 1 / 2) = if tie.goesUp n then n + 1 else n := by
  have hvalue : (n : ℚ) + 1 / 2 = ((n * (2 * 1) + 1 : ℕ) : ℚ) / ((2 * 1 : ℕ) : ℚ) := by
    push_cast
    ring
  rw [hvalue, ← roundDiv_eq_nearestNat tie _ (by decide), roundDiv_tie tie n 1 (by decide)]

/-- The value of a mantissa and an exponent. -/
def Binary64.magnitude (mantissa : ℕ) (exponent : ℤ) : ℚ :=
  mantissa * 2 ^ exponent

theorem Binary64.magnitude_nonneg (mantissa : ℕ) (exponent : ℤ) :
    0 ≤ magnitude mantissa exponent := by
  unfold magnitude
  positivity

theorem Binary64.two_zpow_le_magnitude {mantissa : ℕ} (h : 2 ^ 52 ≤ mantissa) (exponent : ℤ) :
    2 ^ (52 + exponent) ≤ magnitude mantissa exponent := by
  rw [zpow_add₀ two_ne_zero, magnitude]
  exact mul_le_mul_of_nonneg_right (by exact_mod_cast h) (by positivity)

theorem Binary64.numerator_div_denominator (mantissa : ℕ) (exponent : ℤ) :
    (numerator mantissa exponent : ℚ) / denominator exponent = magnitude mantissa exponent := by
  have hexponent : exponent = exponent.toNat - (-exponent).toNat := by omega
  rw [magnitude, numerator, denominator]
  conv_rhs => rw [hexponent, zpow_sub₀ two_ne_zero, zpow_natCast, zpow_natCast]
  have hnum : ((mantissa * Nat.pow 2 exponent.toNat : ℕ) : ℚ) = mantissa * 2 ^ exponent.toNat := by
    exact_mod_cast rfl
  have hden : ((Nat.pow 2 (-exponent).toNat : ℕ) : ℚ) = 2 ^ (-exponent).toNat := by
    exact_mod_cast rfl
  rw [hnum, hden]
  exact mul_div_assoc (mantissa : ℚ) _ _

/-- What is written for a double depends on the number that it denotes alone. -/
theorem nearestUnits_eq (tie : Tie) (places mantissa : ℕ) (exponent : ℤ) :
    nearestUnits tie places mantissa exponent =
      nearestNat tie (Binary64.magnitude mantissa exponent * 10 ^ places) := by
  rw [nearestUnits, roundDiv_eq_nearestNat tie _ (Binary64.denominator_pos exponent),
    ← Binary64.numerator_div_denominator]
  have hscaled : ((Binary64.numerator mantissa exponent * Nat.pow 10 places : ℕ) : ℚ) =
      Binary64.numerator mantissa exponent * 10 ^ places := by
    exact_mod_cast rfl
  rw [hscaled]
  exact congrArg _ (mul_div_right_comm (Binary64.numerator mantissa exponent : ℚ) _ _)

open Binary64 (magnitude)

/-- The exponent of the spacing of the doubles around a positive rational. -/
def spacing (q : ℚ) : ℤ :=
  max (Int.log 2 q - 52) (-1074)

/-- How many times the spacing goes into a rational, to the nearest. -/
def nearestMultiple (q : ℚ) : ℕ :=
  nearestNat .toEven (q / 2 ^ spacing q)

/-- The multiple of the spacing nearest to a rational. -/
def rounded (q : ℚ) : ℚ :=
  magnitude (nearestMultiple q) (spacing q)

theorem spacing_eq {k : ℤ} (hlow : 2 ^ k ≤ q) (hhigh : q < 2 ^ (k + 1)) :
    spacing q = max (k - 52) (-1074) := by
  have hpos : 0 < q := lt_of_lt_of_le (by positivity) hlow
  have hle : k ≤ Int.log 2 q := (Int.zpow_le_iff_le_log (by decide) hpos).1 (by exact_mod_cast hlow)
  have hlt : Int.log 2 q < k + 1 :=
    (Int.lt_zpow_iff_log_lt (by decide) hpos).1 (by exact_mod_cast hhigh)
  have heq : Int.log 2 q = k := by omega
  rw [spacing, heq]

theorem spacing_le {k : ℤ} (hpos : 0 < q) (h : q < 2 ^ k) : spacing q ≤ max (k - 53) (-1074) := by
  have hlt : Int.log 2 q < k := (Int.lt_zpow_iff_log_lt (by decide) hpos).1 (by exact_mod_cast h)
  unfold spacing
  omega

theorem le_spacing {k : ℤ} (h : 2 ^ k ≤ q) : k - 52 ≤ spacing q := by
  have hpos : 0 < q := lt_of_lt_of_le (by positivity) h
  have hle : k ≤ Int.log 2 q := (Int.zpow_le_iff_le_log (by decide) hpos).1 (by exact_mod_cast h)
  unfold spacing
  omega

theorem lt_two_zpow_spacing (q : ℚ) : q < 2 ^ (53 + spacing q) := by
  have hlog : q < ((2 : ℕ) : ℚ) ^ (Int.log 2 q + 1) := Int.lt_zpow_succ_log_self (by decide) q
  refine lt_of_lt_of_le hlog ?_
  have hexponent : Int.log 2 q + 1 ≤ 53 + spacing q := by
    unfold spacing
    omega
  exact_mod_cast zpow_le_zpow_right₀ (by norm_num : (1 : ℚ) ≤ 2) hexponent

theorem two_zpow_spacing_le (hpos : 0 < q) (h : spacing q ≠ -1074) : 2 ^ (52 + spacing q) ≤ q := by
  have hlog : ((2 : ℕ) : ℚ) ^ Int.log 2 q ≤ q := Int.zpow_log_le_self (by decide) hpos
  have hexponent : 52 + spacing q = Int.log 2 q := by
    unfold spacing at h ⊢
    omega
  rw [hexponent]
  exact_mod_cast hlog

/-- The multiple has at most 53 bits, or is the first number that has more. -/
theorem nearestMultiple_le (hq : 0 ≤ q) : nearestMultiple q ≤ 2 ^ 53 := by
  refine nearestNat_le .toEven (by positivity) ?_
  have hbound := (lt_two_zpow_spacing q).le
  rw [zpow_add₀ two_ne_zero] at hbound
  rw [div_le_iff₀ (by positivity)]
  exact_mod_cast hbound

/-- The multiple has 53 bits unless the spacing is the finest. -/
theorem le_nearestMultiple (hpos : 0 < q) (h : spacing q ≠ -1074) : 2 ^ 52 ≤ nearestMultiple q := by
  refine le_nearestNat .toEven ?_
  have hbound := two_zpow_spacing_le hpos h
  rw [zpow_add₀ two_ne_zero] at hbound
  rw [le_div_iff₀ (by positivity)]
  exact_mod_cast hbound

/-- Rounding moves a number by half the spacing at most. -/
theorem abs_rounded_sub_le (hq : 0 ≤ q) : |rounded q - q| ≤ 2 ^ spacing q / 2 := by
  have hstep : (0 : ℚ) < 2 ^ spacing q := by positivity
  have hnear := abs_nearestNat_sub_le .toEven (div_nonneg hq hstep.le)
  have hscaled : rounded q - q = (nearestMultiple q - q / 2 ^ spacing q) * 2 ^ spacing q := by
    rw [rounded, magnitude, sub_mul, div_mul_cancel₀ _ hstep.ne']
  rw [hscaled, abs_mul, abs_of_pos hstep]
  calc |(nearestMultiple q : ℚ) - q / 2 ^ spacing q| * 2 ^ spacing q ≤ 1 / 2 * 2 ^ spacing q :=
        mul_le_mul_of_nonneg_right hnear hstep.le
    _ = 2 ^ spacing q / 2 := by ring

/-- A multiple of the spacing that is nearer than half of it is what the number is rounded to. -/
theorem rounded_eq_of_abs_sub_lt {n : ℕ} (hq : 0 ≤ q)
    (h : |magnitude n (spacing q) - q| < 2 ^ spacing q / 2) :
    rounded q = magnitude n (spacing q) := by
  have hstep : (0 : ℚ) < 2 ^ spacing q := by positivity
  have hscaled : magnitude n (spacing q) - q = (n - q / 2 ^ spacing q) * 2 ^ spacing q := by
    rw [magnitude, sub_mul, div_mul_cancel₀ _ hstep.ne']
  have hnear : |(n : ℚ) - q / 2 ^ spacing q| < 1 / 2 := by
    rw [hscaled, abs_mul, abs_of_pos hstep] at h
    refine lt_of_mul_lt_mul_right ?_ hstep.le
    linarith
  rw [rounded, nearestMultiple, nearestNat_eq_of_abs_sub_lt .toEven (div_nonneg hq hstep.le) hnear]

@[simp] theorem rounded_zero : rounded 0 = 0 := by
  have hnone : nearestMultiple 0 = 0 := by
    rw [nearestMultiple, zero_div]
    exact nearestNat_natCast .toEven 0
  rw [rounded, hnone, magnitude, Nat.cast_zero, zero_mul]

/-- What is less than half the finest spacing is lost. -/
theorem rounded_eq_zero (hpos : 0 < q) (h : q < 2 ^ (-1075 : ℤ)) : rounded q = 0 := by
  have hfinest : spacing q = -1074 := by
    have hle := spacing_le hpos h
    have hge : -1074 ≤ spacing q := le_max_right _ _
    omega
  have hhalf : (2 : ℚ) ^ (-1074 : ℤ) / 2 = 2 ^ (-1075 : ℤ) := by
    rw [show (-1074 : ℤ) = -1075 + 1 by norm_num, zpow_add_one₀ two_ne_zero,
      mul_div_cancel_right₀ _ two_ne_zero]
  have hzero : magnitude 0 (spacing q) = 0 := by
    rw [magnitude, Nat.cast_zero, zero_mul]
  rw [← hzero]
  refine rounded_eq_of_abs_sub_lt hpos.le ?_
  rw [hzero, zero_sub, abs_neg, abs_of_pos hpos, hfinest, hhalf]
  exact h

/-- Rounding keeps half of a number unless it is tiny. -/
theorem half_le_rounded (hpos : 0 < q) (h : spacing q ≠ -1074) : q / 2 ≤ rounded q := by
  have hnear := (abs_le.1 (abs_rounded_sub_le hpos.le)).1
  have hlow := two_zpow_spacing_le hpos h
  rw [zpow_add₀ two_ne_zero] at hlow
  have hstep : (0 : ℚ) < 2 ^ spacing q := by positivity
  have hone : (1 : ℚ) ≤ 2 ^ (52 : ℤ) := by norm_num
  have hstep_le : (2 : ℚ) ^ spacing q ≤ q := le_trans (le_mul_of_one_le_left hstep.le hone) hlow
  linarith

end Turnery.Number
