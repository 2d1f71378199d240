import Mathlib.Data.List.DropRight
import Turnery.Proofs.Number.DecimalShape
import Turnery.Proofs.Number.NearestFloat

/-!
# Written decimals are read and written again

A double is written with at most four decimals, and what is written denotes a double again. The two
need not be the same, but they are written alike: `trimmedDecimal_reread`. Doubles that are finer
than the fourth decimal are read back with an error of less than half a unit of that decimal; where
they are not, the decimal is so close to the double it was written for that no other is nearer.
-/

namespace Turnery.Number

open Binary64 (magnitude)

theorem appendDigits_eq (n : ℕ) (ds : List Char) : appendDigits n ds = Nat.ofDigitChars 10 ds n :=
  Nat.ofDigitChars_eq_foldl.symm

theorem natOfDigits_digits (n : ℕ) : natOfDigits (digits n) = n := by
  rw [natOfDigits, appendDigits_eq]
  exact Nat.ofDigitChars_ten_toDigits

theorem natOfDigits_append (ds es : List Char) :
    natOfDigits (ds ++ es) = appendDigits (natOfDigits ds) es :=
  appendDigits_append 0 ds es

theorem appendDigits_lastDigits (n places units : ℕ) :
    appendDigits n (lastDigits places units) = n * 10 ^ places + units % 10 ^ places := by
  induction places generalizing n with
  | zero => simp [lastDigits, Nat.mod_one]
  | succ places ih =>
    have hdigit : units / Nat.pow 10 places % 10 < 10 := Nat.mod_lt _ (by decide)
    rw [lastDigits, appendDigits_eq, Nat.ofDigitChars_cons_digitChar_of_lt_ten hdigit,
      ← appendDigits_eq, ih]
    have hsplit : units % 10 ^ (places + 1) = units % 10 ^ places + 10 ^ places *
        (units / 10 ^ places % 10) := by
      rw [Nat.pow_succ, Nat.mod_mul]
    rw [hsplit, show Nat.pow 10 places = 10 ^ places from rfl]
    ring

/-- What is dropped are zeros. -/
theorem exists_dropTrailingZeros_append (ds : List Char) :
    ∃ zeros, dropTrailingZeros ds ++ List.replicate zeros '0' = ds := by
  have hzeros : ds.rtakeWhile (· == '0') =
      List.replicate (ds.rtakeWhile (· == '0')).length '0' := by
    refine List.eq_replicate_iff.2 ⟨rfl, fun c hc => ?_⟩
    have hzero := List.mem_rtakeWhile_imp hc
    exact eq_of_beq hzero
  refine ⟨(ds.rtakeWhile (· == '0')).length, ?_⟩
  rw [← hzeros]
  exact List.rdropWhile_append_rtakeWhile

/-- The digits of a canonical decimal write its units, the dropped zeros apart. -/
theorem ten_pow_mul_natOfDigits {places units zeros : ℕ} {kept : List Char}
    (h : kept ++ List.replicate zeros '0' = lastDigits places units) :
    10 ^ zeros * natOfDigits (digits (units / 10 ^ places) ++ kept) = units := by
  have hall := appendDigits_lastDigits (units / 10 ^ places) places units
  rw [← h, appendDigits_append, appendDigits_eq _ (List.replicate _ _),
    Nat.ofDigitChars_replicate_zero, Nat.div_add_mod'] at hall
  rw [natOfDigits_append, natOfDigits_digits]
  exact hall

/-- A canonical decimal is read as a decimal of the same value. -/
theorem exists_unsigned?_canonical (places units : ℕ) :
    ∃ (ds : ℕ) (e : ℤ),
      unsigned? (digits (units / Nat.pow 10 places) ++ fractionText places units) = some (ds, e) ∧
      (ds : ℚ) * 10 ^ e = units / 10 ^ places := by
  refine ⟨_, _, unsigned?_append_fractionText (isDigits_digits _) places units, ?_⟩
  obtain ⟨zeros, hzeros⟩ := exists_dropTrailingZeros_append (lastDigits places units)
  generalize dropTrailingZeros (lastDigits places units) = kept at *
  have hlength : kept.length + zeros = places := by
    have hsame := congrArg List.length hzeros
    simpa using hsame
  have hunits : (units : ℚ) = 10 ^ zeros * natOfDigits
      (digits (units / Nat.pow 10 places) ++ kept) := by
    exact_mod_cast (ten_pow_mul_natOfDigits hzeros).symm
  have hpow : (10 : ℚ) ^ places = 10 ^ kept.length * 10 ^ zeros := by
    rw [← pow_add, hlength]
  rw [zpow_neg, zpow_natCast, hpow, hunits]
  field_simp

/-- A canonical decimal is read as the double nearest to its value. -/
theorem exists_float?_canonicalDecimal (negative : Bool) (places units : ℕ) :
    ∃ (ds : ℕ) (e : ℤ), float? (canonicalDecimal negative places units) =
        some (Numeral.toFloat ⟨negative && units != 0, ds, e⟩) ∧
      (ds : ℚ) * 10 ^ e = units / 10 ^ places := by
  obtain ⟨ds, e, hread, hvalue⟩ := exists_unsigned?_canonical places units
  have hshape :=
    isUnsigned_append_fractionText (isDigits_digits (units / Nat.pow 10 places)) places units
  refine ⟨ds, e, ?_, hvalue⟩
  rw [canonicalDecimal, List.append_assoc]
  exact float?_of_isUnsigned _ hshape hread

/-- The units of the fourth decimal nearest to a double. -/
def fourthDecimals (mantissa : ℕ) (exponent : ℤ) : ℕ :=
  nearestNat .toEven (magnitude mantissa exponent * 10 ^ 4)

variable {mantissa : ℕ} {exponent : ℤ}

/-- A double and the decimal written for it are half a unit apart at most. -/
theorem abs_fourthDecimals_div_sub_le (mantissa : ℕ) (exponent : ℤ) :
    |(fourthDecimals mantissa exponent : ℚ) / 10 ^ 4 - magnitude mantissa exponent| ≤
      1 / 20000 := by
  have hnonneg := Binary64.magnitude_nonneg mantissa exponent
  have hnear :=
    abs_le.1 (abs_nearestNat_sub_le .toEven (mul_nonneg hnonneg (by norm_num : (0 : ℚ) ≤ 10 ^ 4)))
  rw [abs_le, le_sub_iff_add_le, sub_le_iff_le_add, le_div_iff₀ (by norm_num),
    div_le_iff₀ (by norm_num)]
  unfold fourthDecimals
  constructor <;> linarith

theorem IsStored.magnitude_le (h : IsStored mantissa exponent) :
    magnitude mantissa exponent ≤ (2 ^ 53 - 1) * 2 ^ exponent := by
  have hle : (mantissa : ℚ) ≤ 2 ^ 53 - 1 := by
    have hsucc : mantissa + 1 ≤ 2 ^ 53 := h.lt
    rw [le_sub_iff_add_le]
    exact_mod_cast hsucc
  exact mul_le_mul_of_nonneg_right hle (by positivity)

theorem IsStored.magnitude_lt (h : IsStored mantissa exponent) :
    magnitude mantissa exponent < 2 ^ 1024 := by
  have hstep : (2 : ℚ) ^ exponent ≤ 2 ^ (971 : ℤ) := zpow_le_zpow_right₀ (by norm_num) h.most
  calc magnitude mantissa exponent ≤ (2 ^ 53 - 1) * 2 ^ exponent := h.magnitude_le
    _ ≤ (2 ^ 53 - 1) * 2 ^ (971 : ℤ) := mul_le_mul_of_nonneg_left hstep (by norm_num)
    _ < 2 ^ 53 * 2 ^ (971 : ℤ) := mul_lt_mul_of_pos_right (by norm_num) (by positivity)
    _ = 2 ^ 1024 := by rw [← zpow_natCast, ← zpow_natCast, ← zpow_add₀ two_ne_zero]; rfl

/-- Of two stored doubles the one with the larger exponent is the larger. -/
theorem IsStored.magnitude_lt_of_lt {mantissa' : ℕ} {exponent' : ℤ} (h : IsStored mantissa exponent)
    (h' : IsStored mantissa' exponent') (hlt : exponent < exponent') :
    magnitude mantissa exponent < magnitude mantissa' exponent' := by
  -- The mantissa of the larger exponent has all its bits.
  have hfull : 2 ^ 52 ≤ mantissa' := h'.full.resolve_right (by have := h.least; omega)
  have hlow := Binary64.two_zpow_le_magnitude hfull exponent'
  have hhigh := h.magnitude_le
  have hstep : (2 : ℚ) ^ (53 + exponent) ≤ 2 ^ (52 + exponent') :=
    zpow_le_zpow_right₀ (by norm_num) (by omega)
  have hpos : (0 : ℚ) < 2 ^ exponent := by positivity
  rw [zpow_add₀ two_ne_zero 53 exponent] at hstep
  norm_num at hstep hhigh
  linarith

/-- Where the doubles are finer than the fourth decimal, what is read back has the same units. -/
theorem fourthDecimals_of_fine (h : magnitude mantissa exponent ≤ (2 ^ 53 - 1) * 2 ^ (-14 : ℤ)) :
    rounded (fourthDecimals mantissa exponent / 10 ^ 4) < 2 ^ 1024 ∧
      nearestNat .toEven (rounded (fourthDecimals mantissa exponent / 10 ^ 4) * 10 ^ 4) =
        fourthDecimals mantissa exponent := by
  have hnear := abs_le.1 (abs_fourthDecimals_div_sub_le mantissa exponent)
  generalize fourthDecimals mantissa exponent = n at *
  rcases Nat.eq_zero_or_pos n with rfl | hn
  · rw [Nat.cast_zero, zero_div, rounded_zero, zero_mul]
    exact ⟨by positivity, nearestNat_natCast .toEven 0⟩
  have hpos : (0 : ℚ) < n / 10 ^ 4 := by positivity
  have hlt : (n : ℚ) / 10 ^ 4 < 2 ^ (39 : ℤ) := by
    norm_num at h ⊢
    linarith
  have hspacing : (2 : ℚ) ^ spacing (n / 10 ^ 4) ≤ 2 ^ (-14 : ℤ) :=
    zpow_le_zpow_right₀ (by norm_num) (spacing_le hpos hlt)
  have herror := abs_le.1 (abs_rounded_sub_le hpos.le)
  have hunit : (2 : ℚ) ^ (-14 : ℤ) = 1 / 16384 := by norm_num
  rw [hunit] at hspacing
  constructor
  · calc rounded (n / 10 ^ 4) < 2 ^ 40 := by
          norm_num at hlt
          linarith
      _ ≤ 2 ^ 1024 := pow_le_pow_right₀ (by norm_num) (by norm_num)
  · refine nearestNat_eq_of_abs_sub_lt .toEven ?_ ?_
    · exact mul_nonneg (Binary64.magnitude_nonneg _ _) (by norm_num)
    · rw [abs_lt]
      constructor <;> linarith

/-- The least double of a coarse spacing is a whole number, which rounding to decimals cannot
pass. -/
theorem two_zpow_le_fourthDecimals (hfull : 2 ^ 52 ≤ mantissa) (hcoarse : -13 ≤ exponent) :
    2 ^ (52 + exponent) ≤ (fourthDecimals mantissa exponent : ℚ) / 10 ^ 4 := by
  have hstart := Binary64.two_zpow_le_magnitude hfull exponent
  obtain ⟨k, hk⟩ := Int.eq_ofNat_of_zero_le (show 0 ≤ 52 + exponent by omega)
  rw [hk, zpow_natCast] at hstart ⊢
  have hwhole : 2 ^ k * 10 ^ 4 ≤ fourthDecimals mantissa exponent := by
    refine le_nearestNat .toEven ?_
    push_cast
    exact mul_le_mul_of_nonneg_right hstart (by norm_num)
  rw [le_div_iff₀ (by norm_num)]
  exact_mod_cast hwhole

/-- Where the doubles are not finer than the fourth decimal, the double itself is read back. -/
theorem rounded_fourthDecimals_of_coarse (h : IsStored mantissa exponent)
    (hcoarse : -13 ≤ exponent) :
    rounded (fourthDecimals mantissa exponent / 10 ^ 4) = magnitude mantissa exponent := by
  have hnear := abs_le.1 (abs_fourthDecimals_div_sub_le mantissa exponent)
  have hfull : 2 ^ 52 ≤ mantissa := h.full.resolve_right (by omega)
  have hlow := two_zpow_le_fourthDecimals hfull hcoarse
  have hbound := h.magnitude_le
  generalize (fourthDecimals mantissa exponent : ℚ) / 10 ^ 4 = q at *
  have hstep : (1 : ℚ) / 8192 ≤ 2 ^ exponent := by
    calc (1 : ℚ) / 8192 = 2 ^ (-13 : ℤ) := by norm_num
      _ ≤ 2 ^ exponent := zpow_le_zpow_right₀ (by norm_num) hcoarse
  have hhigh : q < 2 ^ (52 + exponent + 1) := by
    have hpow : (2 : ℚ) ^ (52 + exponent + 1) = 2 ^ 53 * 2 ^ exponent := by
      rw [add_right_comm, zpow_add₀ two_ne_zero]
      norm_num
    rw [hpow]
    linarith
  have hspacing : spacing q = exponent := by
    rw [spacing_eq hlow hhigh]
    omega
  have hnonneg : 0 ≤ q := le_trans (by positivity) hlow
  have hclose : |magnitude mantissa (spacing q) - q| < 2 ^ spacing q / 2 := by
    rw [hspacing, abs_lt]
    constructor <;> linarith
  rw [rounded_eq_of_abs_sub_lt hnonneg hclose, hspacing]

/-- The double that a written double is read as has the same units. -/
theorem fourthDecimals_reread (h : (mantissa = 0 ∧ exponent = 0) ∨ IsStored mantissa exponent) :
    rounded (fourthDecimals mantissa exponent / 10 ^ 4) < 2 ^ 1024 ∧
      nearestNat .toEven (rounded (fourthDecimals mantissa exponent / 10 ^ 4) * 10 ^ 4) =
        fourthDecimals mantissa exponent := by
  rcases h with ⟨rfl, rfl⟩ | h
  · refine fourthDecimals_of_fine ?_
    rw [magnitude, Nat.cast_zero, zero_mul]
    norm_num
  · rcases le_or_gt exponent (-14) with hfine | hcoarse
    · refine fourthDecimals_of_fine (h.magnitude_le.trans ?_)
      exact mul_le_mul_of_nonneg_left (zpow_le_zpow_right₀ (by norm_num) hfine) (by norm_num)
    · rw [rounded_fourthDecimals_of_coarse h (by omega)]
      exact ⟨h.magnitude_lt, rfl⟩

/-- What is written for zero has no sign. -/
theorem canonicalDecimal_and_ne_zero (negative : Bool) (places units : ℕ) :
    canonicalDecimal (negative && units != 0) places units =
      canonicalDecimal negative places units := by
  rw [canonicalDecimal, canonicalDecimal, Bool.and_assoc, Bool.and_self]

theorem trimmedDecimal_of_ofFloat {x : Float} {negative : Bool}
    (h : Binary64.ofFloat x = .finite negative mantissa exponent) :
    trimmedDecimal 4 x = String.ofList
      (canonicalDecimal negative 4 (fourthDecimals mantissa exponent)) := by
  simp only [trimmedDecimal, h, nearestUnits_eq]
  rfl

/-- What a numeral denotes, with its sign. -/
theorem ofFloat_toFloat {negative : Bool} {ds : ℕ} {e : ℤ}
    (hfits : rounded (ds * 10 ^ e) < 2 ^ 1024) :
    ∃ mantissa exponent, Binary64.ofFloat (Numeral.toFloat ⟨negative, ds, e⟩) =
      .finite negative mantissa exponent ∧
      magnitude mantissa exponent = rounded (ds * 10 ^ e) := by
  obtain ⟨mantissa, exponent, hvalue, hmagnitude⟩ := ofFloat_nearestFloat hfits
  refine ⟨mantissa, exponent, ?_, hmagnitude⟩
  cases negative with
  | false => exact hvalue
  | true => exact Binary64.ofFloat_neg hvalue

/-- What is written for a finite double denotes a double for which the same is written. -/
theorem trimmedDecimal_reread {x : Float} (h : x.isFinite = true) :
    ∃ y, float? (trimmedDecimal 4 x).toList = some y ∧ trimmedDecimal 4 y = trimmedDecimal 4 x := by
  obtain ⟨negative, mantissa, exponent, hx⟩ := Binary64.isFinite_iff.1 h
  obtain ⟨hfits, hunits⟩ := fourthDecimals_reread (Binary64.isStored_of_ofFloat hx)
  rw [trimmedDecimal_of_ofFloat hx, String.toList_ofList]
  generalize fourthDecimals mantissa exponent = units at *
  obtain ⟨ds, e, hread, hvalue⟩ := exists_float?_canonicalDecimal negative 4 units
  rw [← hvalue] at hfits hunits
  obtain ⟨mantissa', exponent', hy, hmagnitude⟩ := ofFloat_toFloat hfits
  refine ⟨_, hread, ?_⟩
  have hsame : fourthDecimals mantissa' exponent' = units := by
    rw [fourthDecimals, hmagnitude, hunits]
  rw [trimmedDecimal_of_ofFloat hy, hsame, canonicalDecimal_and_ne_zero]

end Turnery.Number
