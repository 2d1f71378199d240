import Turnery.Number.Literal
import Turnery.Proofs.Number.Rounded
import Turnery.Proofs.Number.Stored

/-!
# Numerals are rounded to the nearest double

`ofFloat_nearestFloat` says which double a numeral denotes: the one that its exact value is rounded
to. The arithmetic behind it cuts a binary expansion off and keeps two bits of what was cut off;
`Represents` tells which numbers such a mantissa stands for.
-/

namespace Turnery.Number

open Float.Model (Format UnpackedFloat totalExponent)
open Float.Model.UnpackedFloat
open Binary64 (magnitude)

/-- The mantissa is the whole part of the number; the round bit stands for one half, the sticky bit
for any rest. -/
def Represents (em : ExtendedMantissa) (y : ℚ) : Prop :=
  ∃ rest : ℚ, y = em.mantissa + (if em.roundBit then 1 / 2 else 0) + rest ∧ 0 ≤ rest ∧
    rest < 1 / 2 ∧ (em.stickyBit = true ↔ rest ≠ 0)

@[simp] theorem mantissa_ofMantissaAndAccuracy (m : ℕ) (accuracy : Accuracy) :
    (ExtendedMantissa.ofMantissaAndAccuracy m accuracy).mantissa = m := by
  cases accuracy with
  | exact => rfl
  | inexact order => cases order <;> rfl

theorem represents_natCast (n : ℕ) : Represents (.ofMantissaAndAccuracy n .exact) n :=
  ⟨0, by simp [ExtendedMantissa.ofMantissaAndAccuracy], by norm_num, by norm_num,
    by simp [ExtendedMantissa.ofMantissaAndAccuracy]⟩

theorem represents_of_lt_half (m : ℕ) {rest : ℚ} (hpos : 0 < rest) (hlt : rest < 1 / 2) :
    Represents (.ofMantissaAndAccuracy m (.inexact .lt)) (m + rest) :=
  ⟨rest, by simp [ExtendedMantissa.ofMantissaAndAccuracy], hpos.le, hlt,
    by simp [ExtendedMantissa.ofMantissaAndAccuracy, hpos.ne']⟩

theorem represents_of_eq_half (m : ℕ) :
    Represents (.ofMantissaAndAccuracy m (.inexact .eq)) (m + 1 / 2) :=
  ⟨0, by simp [ExtendedMantissa.ofMantissaAndAccuracy], by norm_num, by norm_num,
    by simp [ExtendedMantissa.ofMantissaAndAccuracy]⟩

theorem represents_of_half_lt (m : ℕ) {rest : ℚ} (hlt : 1 / 2 < rest) (hone : rest < 1) :
    Represents (.ofMantissaAndAccuracy m (.inexact .gt)) (m + rest) := by
  have hpos : 0 < rest - 1 / 2 := sub_pos.2 hlt
  refine ⟨rest - 1 / 2, ?_, hpos.le, by linarith, ?_⟩
  · simp only [ExtendedMantissa.ofMantissaAndAccuracy, if_true]
    ring
  · simpa [ExtendedMantissa.ofMantissaAndAccuracy] using hpos.ne'

/-- Division with remainder leaves a mantissa that represents the quotient. -/
theorem represents_div (num : ℕ) {den : ℕ} (hden : 0 < den) :
    Represents (.ofMantissaAndAccuracy (num / den) (accuracyOfFraction (num % den) den))
      (num / den) := by
  have hden' : (0 : ℚ) < den := by exact_mod_cast hden
  have hvalue : (num : ℚ) / den = (num / den : ℕ) + (num % den : ℕ) / den := by
    have hdivMod : ((num / den : ℕ) : ℚ) * den + (num % den : ℕ) = num := by
      exact_mod_cast Nat.div_add_mod' num den
    rw [div_eq_iff hden'.ne', add_mul, div_mul_cancel₀ _ hden'.ne', hdivMod]
  have hlt : ((num % den : ℕ) : ℚ) < den := by exact_mod_cast Nat.mod_lt num hden
  rw [hvalue]
  generalize num / den = m
  generalize num % den = r at hlt
  unfold accuracyOfFraction
  split
  · rename_i hzero
    rw [hzero, Nat.cast_zero, zero_div, add_zero]
    exact represents_natCast m
  · rename_i hne
    have hpos : (0 : ℚ) < r := by exact_mod_cast Nat.pos_of_ne_zero hne
    cases hcompare : compare (2 * r) den with
    | lt =>
      have hsmall : (2 : ℚ) * r < den := by exact_mod_cast Nat.compare_eq_lt.1 hcompare
      refine represents_of_lt_half m (div_pos hpos hden') ?_
      rw [div_lt_iff₀ hden']
      linarith
    | eq =>
      have hhalf : (2 : ℚ) * r = den := by exact_mod_cast Nat.compare_eq_eq.1 hcompare
      have hquotient : (r : ℚ) / den = 1 / 2 := by
        rw [div_eq_iff hden'.ne']
        linarith
      rw [hquotient]
      exact represents_of_eq_half m
    | gt =>
      have hlarge : (den : ℚ) < 2 * r := by exact_mod_cast Nat.compare_eq_gt.1 hcompare
      refine represents_of_half_lt m ?_ ((div_lt_one hden').2 hlt)
      rw [lt_div_iff₀ hden']
      linarith

namespace Represents

variable {em : ExtendedMantissa} {y : ℚ}

theorem mantissa_le (h : Represents em y) : (em.mantissa : ℚ) ≤ y := by
  obtain ⟨rest, rfl, hrest, -, -⟩ := h
  split <;> linarith

theorem lt_mantissa_add_one (h : Represents em y) : y < em.mantissa + 1 := by
  obtain ⟨rest, rfl, -, hrest, -⟩ := h
  split <;> linarith

/-- Half the number: the last bit of the mantissa becomes the round bit, the others stick. -/
theorem shiftRightOne (h : Represents em y) : Represents em.shiftRightOne (y / 2) := by
  obtain ⟨rest, rfl, hrest, hlt, hsticky⟩ := h
  obtain ⟨m, round, sticky⟩ := em
  have hm : (m : ℚ) = 2 * (m / 2 : ℕ) + (m % 2 : ℕ) := by
    exact_mod_cast (Nat.div_add_mod m 2).symm
  refine ⟨(if round then 1 / 4 else 0) + rest / 2, ?_, ?_, ?_, ?_⟩
  · simp only [ExtendedMantissa.shiftRightOne, hm]
    rcases Nat.mod_two_eq_zero_or_one m with hbit | hbit <;> cases round <;> simp [hbit] <;> ring
  · split <;> linarith
  · split <;> linarith
  · cases round with
    | false => simpa [ExtendedMantissa.shiftRightOne] using hsticky
    | true =>
      have hne : (1 : ℚ) / 4 + rest / 2 ≠ 0 := by linarith
      simpa [ExtendedMantissa.shiftRightOne] using hne

theorem shiftRight (h : Represents em y) (k : ℕ) : Represents (em >>> k) (y / 2 ^ k) := by
  show Represents (k.repeat ExtendedMantissa.shiftRightOne em) _
  induction k with
  | zero =>
    rw [pow_zero, div_one]
    exact h
  | succ k ih =>
    rw [pow_succ, ← div_div]
    exact ih.shiftRightOne

/-- The residual bits are enough to round to the nearest number. -/
theorem roundedMantissa (h : Represents em y) : em.roundedMantissa = nearestNat .toEven y := by
  have hle := h.mantissa_le
  have hnonneg : 0 ≤ y := le_trans (by positivity) hle
  obtain ⟨rest, hy, hrest, hlt, hsticky⟩ := h
  obtain ⟨m, round, sticky⟩ := em
  cases round with
  | false =>
    have hnear : |(m : ℚ) - y| < 1 / 2 := by
      rw [hy, abs_lt]
      constructor <;> simp <;> linarith
    rw [nearestNat_eq_of_abs_sub_lt .toEven hnonneg hnear]
    cases sticky <;> rfl
  | true =>
    cases sticky with
    | false =>
      have hzero : rest = 0 := by simpa using hsticky
      have htie : y = m + 1 / 2 := by simpa [hzero] using hy
      rw [htie, nearestNat_tie]
      show m + m % 2 = if m % 2 == 1 then m + 1 else m
      rcases Nat.mod_two_eq_zero_or_one m with hbit | hbit <;> simp [hbit]
    | true =>
      have hpos : 0 < rest := lt_of_le_of_ne hrest (by simpa using hsticky : rest ≠ 0).symm
      have hnear : |((m + 1 : ℕ) : ℚ) - y| < 1 / 2 := by
        rw [hy, abs_lt]
        constructor <;> simp <;> linarith
      rw [nearestNat_eq_of_abs_sub_lt .toEven hnonneg hnear]
      rfl

end Represents

theorem targetExponent_binary64 (total : ℤ) :
    Format.binary64.targetExponent total = max (total - 53) (-1074) := rfl

theorem totalExponent_bounds {m : ℕ} (hm : 0 < m) {y : ℚ} (hle : (m : ℚ) ≤ y) (hlt : y < m + 1)
    (e : ℤ) :
    2 ^ (m.log2 + e) ≤ y * 2 ^ e ∧ y * 2 ^ e < 2 ^ (m.log2 + e + 1) := by
  have hlow : ((2 ^ m.log2 : ℕ) : ℚ) ≤ m := by exact_mod_cast Nat.log2_self_le (Nat.ne_of_gt hm)
  have hhigh : (m : ℚ) + 1 ≤ ((2 ^ (m.log2 + 1) : ℕ) : ℚ) := by exact_mod_cast Nat.lt_log2_self
  have hstep : (0 : ℚ) < 2 ^ e := by positivity
  rw [add_right_comm, zpow_add₀ two_ne_zero, zpow_add₀ two_ne_zero]
  constructor
  · refine mul_le_mul_of_nonneg_right ?_ hstep.le
    exact_mod_cast hlow.trans hle
  · refine mul_lt_mul_of_pos_right ?_ hstep
    exact_mod_cast hlt.trans_le hhigh

/-- A mantissa is shifted to the spacing around the number that it stands for. -/
theorem targetExponent_eq_spacing {m : ℕ} {y : ℚ} {e : ℤ} (hle : (m : ℚ) ≤ y) (hlt : y < m + 1)
    (hpos : 0 < y) (h : 0 < m ∨ e ≤ -1074) :
    Format.binary64.targetExponent (totalExponent m e) = spacing (y * 2 ^ e) := by
  rw [targetExponent_binary64, totalExponent]
  rcases Nat.eq_zero_or_pos m with rfl | hm
  · have he : e ≤ -1074 := h.resolve_left (lt_irrefl 0)
    have hsmall : y * 2 ^ e < 2 ^ e := by
      have hone : y < 1 := by simpa using hlt
      calc y * 2 ^ e < 1 * 2 ^ e := mul_lt_mul_of_pos_right hone (by positivity)
        _ = 2 ^ e := one_mul _
    have hspacing := spacing_le (by positivity) hsmall
    have hfinest : -1074 ≤ spacing (y * 2 ^ e) := le_max_right _ _
    rw [show Nat.log2 0 = 0 from rfl]
    omega
  · obtain ⟨hlow, hhigh⟩ := totalExponent_bounds hm hle hlt e
    rw [spacing_eq hlow hhigh]
    omega

theorem shiftToTargetExponent_of_le {m : ℕ} {e target : ℤ} (accuracy : Accuracy)
    (htarget : Format.binary64.targetExponent (totalExponent m e) = target) (h : e ≤ target) :
    shiftToTargetExponent .binary64 m e accuracy =
      (ExtendedMantissa.ofMantissaAndAccuracy m accuracy >>> (target - e).toNat, target) := by
  rw [shiftToTargetExponent, htarget, shiftToExponent]
  have hexponent : e + ((target - e).toNat : ℤ) = target := by omega
  rw [hexponent]

/-- A mantissa of 53 bits stays. -/
theorem shiftToTargetExponent_of_lt {n : ℕ} {e : ℤ} (hn : n < 2 ^ 53) (he : -1074 ≤ e) :
    shiftToTargetExponent .binary64 n e .exact = (⟨n, false, false⟩, e) := by
  have hlog : n.log2 < 53 := by
    rcases Nat.eq_zero_or_pos n with rfl | hpos
    · decide
    · exact (Nat.log2_lt (Nat.ne_of_gt hpos)).2 hn
  have htarget : (Format.binary64.targetExponent (totalExponent n e) - e).toNat = 0 := by
    rw [targetExponent_binary64, totalExponent]
    omega
  rw [shiftToTargetExponent, shiftToExponent, htarget]
  exact congrArg _ (add_zero e)

/-- The first mantissa with a bit more is halved. -/
theorem shiftToTargetExponent_carry {e : ℤ} (he : -1074 ≤ e) :
    shiftToTargetExponent .binary64 (2 ^ 53) e .exact = (⟨2 ^ 52, false, false⟩, e + 1) := by
  have htarget : Format.binary64.targetExponent (totalExponent (2 ^ 53) e) = e + 1 := by
    rw [targetExponent_binary64, totalExponent, Nat.log2_two_pow]
    omega
  rw [shiftToTargetExponent_of_le .exact htarget (by omega), add_sub_cancel_left]
  rfl

theorem isStored_of_magnitude_lt {mantissa : ℕ} {exponent : ℤ} (hpos : 0 < mantissa)
    (hlt : mantissa < 2 ^ 53) (hleast : -1074 ≤ exponent)
    (hfull : 2 ^ 52 ≤ mantissa ∨ exponent = -1074)
    (hfits : magnitude mantissa exponent < 2 ^ 1024) : IsStored mantissa exponent := by
  refine ⟨hpos, hlt, hleast, ?_, hfull⟩
  rcases hfull with hfull | rfl
  · have hlow := Binary64.two_zpow_le_magnitude hfull exponent
    have hpow : (2 : ℚ) ^ (52 + exponent) < 2 ^ (1024 : ℤ) :=
      lt_of_le_of_lt hlow (by exact_mod_cast hfits)
    have hexponent := (zpow_lt_zpow_iff_right₀ (by norm_num : (1 : ℚ) < 2)).1 hpow
    omega
  · decide

theorem magnitude_carry (exponent : ℤ) :
    magnitude (2 ^ 52) (exponent + 1) = magnitude (2 ^ 53) exponent := by
  rw [magnitude, magnitude, zpow_add_one₀ two_ne_zero]
  push_cast
  ring

/-- Rounding shifts twice; the second time it only takes up a carry. -/
theorem roundWithAccuracy_of_shifts (sign : Sign) {m n : ℕ} {e e₁ e₂ : ℤ} {accuracy : Accuracy}
    {em₁ em₂ : ExtendedMantissa} (hfirst : shiftToTargetExponent .binary64 m e accuracy = (em₁, e₁))
    (hrounded : em₁.roundedMantissa = n)
    (hsecond : shiftToTargetExponent .binary64 n e₁ .exact = (em₂, e₂)) :
    roundWithAccuracy .binary64 sign m e accuracy =
      if h : em₂.mantissa = 0 then .zero sign
      else .finite sign em₂.mantissa e₂ (Nat.pos_of_ne_zero h) := by
  subst hrounded
  rw [roundWithAccuracy, hfirst]
  dsimp only
  rw [hsecond]

/-- The first shift leads to the spacing around the number, and the multiple of it that is
nearest. -/
theorem exists_shiftToTargetExponent {m : ℕ} {e : ℤ} {accuracy : Accuracy} {y : ℚ}
    (hy : Represents (.ofMantissaAndAccuracy m accuracy) y) (hpos : 0 < y)
    (hwhole : 0 < m ∨ e ≤ -1074) (he : e ≤ spacing (y * 2 ^ e)) :
    ∃ em, shiftToTargetExponent .binary64 m e accuracy = (em, spacing (y * 2 ^ e)) ∧
      em.roundedMantissa = nearestMultiple (y * 2 ^ e) := by
  have hle := hy.mantissa_le
  have hlt := hy.lt_mantissa_add_one
  rw [mantissa_ofMantissaAndAccuracy] at hle hlt
  refine ⟨_, shiftToTargetExponent_of_le accuracy
    (targetExponent_eq_spacing hle hlt hpos hwhole) he, ?_⟩
  have hshift : (2 : ℚ) ^ (spacing (y * 2 ^ e) - e).toNat = 2 ^ (spacing (y * 2 ^ e) - e) := by
    rw [← zpow_natCast, Int.toNat_of_nonneg (by omega)]
  rw [(hy.shiftRight _).roundedMantissa, nearestMultiple, hshift, zpow_sub₀ two_ne_zero,
    div_div_eq_mul_div]

/-- A mantissa with what is known of the rest is rounded to zero, or to the mantissa and the
exponent of the rounded number. -/
theorem roundWithAccuracy_cases (sign : Sign) {m : ℕ} {e : ℤ} {accuracy : Accuracy} {y : ℚ}
    (hy : Represents (.ofMantissaAndAccuracy m accuracy) y) (hpos : 0 < y)
    (hwhole : 0 < m ∨ e ≤ -1074) (he : e ≤ spacing (y * 2 ^ e)) :
    (rounded (y * 2 ^ e) = 0 ∧ roundWithAccuracy .binary64 sign m e accuracy = .zero sign) ∨
      ∃ mantissa exponent, ∃ hmantissa : 0 < mantissa, mantissa < 2 ^ 53 ∧ -1074 ≤ exponent ∧
        (2 ^ 52 ≤ mantissa ∨ exponent = -1074) ∧ magnitude mantissa exponent = rounded (y * 2 ^ e) ∧
        roundWithAccuracy .binary64 sign m e accuracy =
          .finite sign mantissa exponent hmantissa := by
  obtain ⟨em, hfirst, hrounded⟩ := exists_shiftToTargetExponent hy hpos hwhole he
  have hxpos : 0 < y * 2 ^ e := by positivity
  generalize y * 2 ^ e = x at *
  have hleast : -1074 ≤ spacing x := le_max_right _ _
  rcases (nearestMultiple_le hxpos.le).lt_or_eq with hlt | hcarry
  · rw [roundWithAccuracy_of_shifts sign hfirst hrounded (shiftToTargetExponent_of_lt hlt hleast)]
    by_cases hnone : nearestMultiple x = 0
    · refine .inl ⟨?_, dif_pos hnone⟩
      rw [rounded, hnone, magnitude, Nat.cast_zero, zero_mul]
    · have hfull : 2 ^ 52 ≤ nearestMultiple x ∨ spacing x = -1074 := by
        by_cases hfinest : spacing x = -1074
        · exact .inr hfinest
        · exact .inl (le_nearestMultiple hxpos hfinest)
      exact .inr ⟨_, _, Nat.pos_of_ne_zero hnone, hlt, hleast, hfull, rfl, dif_neg hnone⟩
  · -- the multiple has one bit too many, and is halved without a rest
    have hvalue : magnitude (2 ^ 52) (spacing x + 1) = rounded x := by
      rw [magnitude_carry, rounded, hcarry]
    rw [hcarry] at hrounded
    rw [roundWithAccuracy_of_shifts sign hfirst hrounded (shiftToTargetExponent_carry hleast)]
    exact .inr ⟨_, _, by decide, by decide, by omega, .inl le_rfl, hvalue, dif_neg (by decide)⟩

/-- The result is the double nearest to the number that the mantissa stands for. -/
theorem ofFloat_roundWithAccuracy (sign : Sign) {m : ℕ} {e : ℤ} {accuracy : Accuracy} {y : ℚ}
    (hy : Represents (.ofMantissaAndAccuracy m accuracy) y) (hpos : 0 < y)
    (hwhole : 0 < m ∨ e ≤ -1074) (he : e ≤ spacing (y * 2 ^ e))
    (hfits : rounded (y * 2 ^ e) < 2 ^ 1024) :
    ∃ mantissa exponent,
      Binary64.ofFloat (.ofModel (.pack (roundWithAccuracy .binary64 sign m e accuracy))) =
        .finite (Binary64.isNegative sign) mantissa exponent ∧
      magnitude mantissa exponent = rounded (y * 2 ^ e) := by
  obtain ⟨hzero, hround⟩ | ⟨mantissa, exponent, hmantissa, hlt, hleast, hfull, hvalue, hround⟩ :=
    roundWithAccuracy_cases sign hy hpos hwhole he
  · refine ⟨0, 0, by rw [hround]; exact Binary64.ofFloat_pack_zero sign, ?_⟩
    rw [hzero, magnitude, Nat.cast_zero, zero_mul]
  · have hstored := isStored_of_magnitude_lt hmantissa hlt hleast hfull (hvalue ▸ hfits)
    exact ⟨mantissa, exponent, by rw [hround]; exact Binary64.ofFloat_pack sign hstored, hvalue⟩

/-- The binary digits of numerator and denominator bound a quotient from below. -/
theorem two_zpow_le_div {num den : ℕ} (hnum : 0 < num) (hden : 0 < den) :
    (2 : ℚ) ^ ((num.log2 : ℤ) - (den.log2 + 1)) ≤ num / den := by
  have hlow : ((2 ^ num.log2 : ℕ) : ℚ) ≤ num := by
    exact_mod_cast Nat.log2_self_le (Nat.ne_of_gt hnum)
  have hhigh : (den : ℚ) ≤ ((2 ^ (den.log2 + 1) : ℕ) : ℚ) := by
    exact_mod_cast Nat.lt_log2_self.le
  have hden' : (0 : ℚ) < den := by exact_mod_cast hden
  rw [zpow_sub₀ two_ne_zero]
  exact div_le_div₀ (by positivity) (by exact_mod_cast hlow) hden' (by exact_mod_cast hhigh)

/-- A numerator that is shifted to have more bits than the denominator leaves a quotient. -/
theorem shiftLeft_div_pos {num den shift : ℕ} (hnum : 0 < num) (hden : 0 < den)
    (h : den.log2 + 1 ≤ num.log2 + shift) : 0 < (num <<< shift) / den := by
  refine Nat.div_pos ?_ hden
  calc den ≤ 2 ^ (den.log2 + 1) := Nat.lt_log2_self.le
    _ ≤ 2 ^ (num.log2 + shift) := Nat.pow_le_pow_right (by decide) h
    _ = 2 ^ num.log2 * 2 ^ shift := Nat.pow_add 2 _ _
    _ ≤ num * 2 ^ shift := Nat.mul_le_mul_right _ (Nat.log2_self_le (Nat.ne_of_gt hnum))
    _ = num <<< shift := (Nat.shiftLeft_eq num shift).symm

/-- A quotient is rounded with a mantissa that represents it. -/
theorem exists_div_eq_roundWithAccuracy (sign other : Sign) {num den : ℕ} (e e' : ℤ)
    (hnum : 0 < num) (hden : 0 < den) :
    ∃ (m : ℕ) (target : ℤ) (accuracy : Accuracy) (y : ℚ),
      div .binary64 (.finite sign num e hnum) (.finite other den e' hden) =
        roundWithAccuracy .binary64 (sign / other) m target accuracy ∧
      Represents (.ofMantissaAndAccuracy m accuracy) y ∧ 0 < y ∧ (0 < m ∨ target ≤ -1074) ∧
      y * 2 ^ target = magnitude num e / magnitude den e' ∧ target ≤ spacing (y * 2 ^ target) := by
  -- the numerator is shifted far enough for the quotient to have 53 bits
  obtain ⟨shift, hshift⟩ : ∃ shift : ℕ,
      min (e - e') (max ((num.log2 + 1 + e : ℤ) - (den.log2 + 1 + e') - 53) (-1074)) =
          e - e' - shift :=
    ⟨(e - e' - min (e - e') (max ((num.log2 + 1 + e : ℤ) - (den.log2 + 1 + e') - 53)
      (-1074))).toNat, by omega⟩
  have htarget : min (e - e')
      (Format.binary64.targetExponent (totalExponent num e - totalExponent den e')) =
      e - e' - shift := by
    rw [targetExponent_binary64, totalExponent, totalExponent]
    exact hshift
  have hdiv : div .binary64 (.finite sign num e hnum) (.finite other den e' hden) =
      roundWithAccuracy .binary64 (sign / other) ((num <<< shift) / den) (e - e' - shift)
        (accuracyOfFraction ((num <<< shift) % den) den) := by
    rw [div, divCore, htarget]
    have hamount : (e - e' - (e - e' - (shift : ℤ))).toNat = shift := by omega
    rw [hamount]
  have hden' : (0 : ℚ) < den := by exact_mod_cast hden
  have hnum' : (0 : ℚ) < (num <<< shift : ℕ) := by
    rw [Nat.shiftLeft_eq]
    positivity
  have hvalue : ((num <<< shift : ℕ) : ℚ) / den * 2 ^ (e - e' - shift) =
      magnitude num e / magnitude den e' := by
    rw [Nat.shiftLeft_eq, Nat.cast_mul, Nat.cast_pow, Nat.cast_ofNat, zpow_sub₀ two_ne_zero,
      zpow_sub₀ two_ne_zero, zpow_natCast, magnitude, magnitude]
    field_simp
  have hlow : (2 : ℚ) ^ ((num.log2 : ℤ) - (den.log2 + 1) + (e - e')) ≤
      magnitude num e / magnitude den e' := by
    have hquotient : magnitude num e / magnitude den e' = num / den * 2 ^ (e - e') := by
      rw [magnitude, magnitude, zpow_sub₀ two_ne_zero, mul_div_mul_comm]
    rw [hquotient, zpow_add₀ two_ne_zero]
    exact mul_le_mul_of_nonneg_right (two_zpow_le_div hnum hden) (by positivity)
  have hspacing : e - e' - shift ≤ spacing (magnitude num e / magnitude den e') := by
    have hfinest : -1074 ≤ spacing (magnitude num e / magnitude den e') := le_max_right _ _
    have hle := le_spacing hlow
    omega
  refine ⟨_, _, _, _, hdiv, represents_div (num <<< shift) hden, div_pos hnum' hden', ?_, hvalue,
    hvalue ▸ hspacing⟩
  by_cases hfinest : e - e' - shift ≤ -1074
  · exact .inr hfinest
  · exact .inl (shiftLeft_div_pos hnum hden (by omega))

/-- A quotient of natural numbers is rounded to the nearest double. -/
theorem ofFloat_div {num den : ℕ} (hnum : 0 < num) (hden : 0 < den)
    (hfits : rounded (num / den) < 2 ^ 1024) :
    ∃ mantissa exponent,
      Binary64.ofFloat (.ofModel (.pack
        (div .binary64 (.finite .positive num 0 hnum) (.finite .positive den 0 hden)))) =
          .finite false mantissa exponent ∧
      magnitude mantissa exponent = rounded (num / den) := by
  obtain ⟨m, target, accuracy, y, hdiv, hy, hpos, hwhole, hvalue, hspacing⟩ :=
    exists_div_eq_roundWithAccuracy .positive .positive 0 0 hnum hden
  have hquotient : y * 2 ^ target = (num : ℚ) / den := by
    rw [hvalue, magnitude, magnitude, zpow_zero, mul_one, mul_one]
  rw [← hquotient] at hfits ⊢
  rw [hdiv]
  exact ofFloat_roundWithAccuracy .positive hy hpos hwhole hspacing hfits

/-- A natural number is rounded to the nearest double. -/
theorem ofFloat_natCast {n : ℕ} (hn : 0 < n) (hfits : rounded n < 2 ^ 1024) :
    ∃ mantissa exponent,
      Binary64.ofFloat
        (.ofModel (.pack (roundWithAccuracy .binary64 .positive (n * 2 ^ 53) (-53) .exact))) =
        .finite false mantissa exponent ∧
      magnitude mantissa exponent = rounded n := by
  have hvalue : ((n * 2 ^ 53 : ℕ) : ℚ) * 2 ^ (-53 : ℤ) = n := by
    rw [Nat.cast_mul, mul_assoc]
    norm_num
  have hpos : 0 < n * 2 ^ 53 := by positivity
  have hone : (2 : ℚ) ^ (0 : ℤ) ≤ n := by
    rw [zpow_zero]
    exact_mod_cast hn
  have he := le_spacing hone
  have hresult :=
    ofFloat_roundWithAccuracy .positive (represents_natCast (n * 2 ^ 53)) (by exact_mod_cast hpos)
      (.inl hpos) (by rw [hvalue]; omega) (by rw [hvalue]; exact hfits)
  rw [hvalue] at hresult
  exact hresult

/-- Powers of ten that are not worked out belong to numbers beyond the largest double. -/
theorem not_rounded_lt_of_lt {digits : ℕ} {exponent : ℤ} (hdigits : 0 < digits)
    (h : 2048 < exponent) :
    ¬rounded (digits * 10 ^ exponent) < 2 ^ 1024 := by
  have hpow : (2 : ℚ) ^ (1025 : ℤ) ≤ 10 ^ exponent := by
    calc (2 : ℚ) ^ (1025 : ℤ) ≤ 2 ^ exponent := zpow_le_zpow_right₀ (by norm_num) (by omega)
      _ ≤ 10 ^ exponent := zpow_le_zpow_left₀ (by omega) (by norm_num) (by norm_num)
  have hone : (1 : ℚ) ≤ digits := by exact_mod_cast hdigits
  have hlarge : (2 : ℚ) ^ (1025 : ℤ) ≤ digits * 10 ^ exponent :=
    hpow.trans (le_mul_of_one_le_left (by positivity) hone)
  have hspacing : spacing (digits * 10 ^ exponent) ≠ -1074 := by
    have := le_spacing hlarge
    omega
  have hhalf := half_le_rounded (by positivity) hspacing
  rw [not_lt]
  refine le_trans ?_ hhalf
  rw [le_div_iff₀ two_pos]
  have hdouble : (2 : ℚ) ^ 1024 * 2 = 2 ^ (1025 : ℤ) := by
    rw [← pow_succ, ← zpow_natCast]
    rfl
  rw [hdouble]
  exact hlarge

/-- Powers of ten that are not worked out belong to numbers that are rounded to zero. -/
theorem rounded_eq_zero_of_lt {digits : ℕ} {exponent : ℤ} (hdigits : 0 < digits)
    (h : exponent < -(2048 + (digits.log2 : ℤ))) : rounded (digits * 10 ^ exponent) = 0 := by
  refine rounded_eq_zero (by positivity) ?_
  have hlog : (digits : ℚ) < 2 ^ ((digits.log2 : ℤ) + 1) := by
    have hbits : digits < 2 ^ (digits.log2 + 1) := Nat.lt_log2_self
    exact_mod_cast hbits
  have hten : (10 : ℚ) ^ exponent ≤ 2 ^ exponent := by
    obtain ⟨k, rfl⟩ : ∃ k : ℕ, exponent = -(k : ℤ) := ⟨(-exponent).toNat, by omega⟩
    rw [zpow_neg, zpow_neg, zpow_natCast, zpow_natCast]
    exact inv_anti₀ (by positivity) (pow_le_pow_left₀ (by norm_num) (by norm_num) k)
  calc (digits : ℚ) * 10 ^ exponent < 2 ^ ((digits.log2 : ℤ) + 1) * 2 ^ exponent :=
        mul_lt_mul hlog hten (by positivity) (by positivity)
    _ = 2 ^ ((digits.log2 : ℤ) + 1 + exponent) := (zpow_add₀ two_ne_zero _ _).symm
    _ ≤ 2 ^ (-1075 : ℤ) := zpow_le_zpow_right₀ (by norm_num) (by omega)

/-- A numeral denotes the double that its value is rounded to, if that is not beyond the largest. -/
theorem ofFloat_nearestFloat {digits : ℕ} {exponent : ℤ}
    (hfits : rounded (digits * 10 ^ exponent) < 2 ^ 1024) :
    ∃ mantissa exponent',
      Binary64.ofFloat (nearestFloat digits exponent) = .finite false mantissa exponent' ∧
      magnitude mantissa exponent' = rounded (digits * 10 ^ exponent) := by
  rcases Nat.eq_zero_or_pos digits with rfl | hdigits
  · refine ⟨0, 0, Binary64.ofFloat_pack_zero .positive, ?_⟩
    simp [magnitude]
  have hguard : ((2 : ℤ) ^ Format.binary64.exponentBits) = 2048 := rfl
  rw [nearestFloat, Float.Model.ofScientific, ofScientific, dif_neg (Nat.ne_of_gt hdigits), hguard]
  by_cases hlarge : exponent > 2048
  · exact absurd hfits (not_rounded_lt_of_lt hdigits hlarge)
  rw [if_neg hlarge]
  by_cases hsmall : exponent < -(2048 + (digits.log2 : ℤ))
  · rw [if_pos hsmall, rounded_eq_zero_of_lt hdigits hsmall]
    refine ⟨0, 0, Binary64.ofFloat_pack_zero .positive, ?_⟩
    simp [magnitude]
  rw [if_neg hsmall]
  by_cases hsign : 0 ≤ exponent
  · obtain ⟨k, rfl⟩ := Int.eq_ofNat_of_zero_le hsign
    have hvalue : (digits : ℚ) * 10 ^ (k : ℤ) = (digits * 10 ^ k : ℕ) := by
      rw [zpow_natCast, Nat.cast_mul, Nat.cast_pow, Nat.cast_ofNat]
    have hproduct : (digits <<< Format.binary64.mantissaBits) * 10 ^ k =
        digits * 10 ^ k * 2 ^ 53 := by
      rw [Nat.shiftLeft_eq, Nat.mul_right_comm]
      rfl
    rw [if_pos hsign]
    rw [hvalue] at hfits ⊢
    show ∃ mantissa exponent', Binary64.ofFloat
      (.ofModel (.pack (roundWithAccuracy .binary64 .positive
      ((digits <<< Format.binary64.mantissaBits) * 10 ^ k) (-53) .exact))) = _ ∧ _
    rw [hproduct]
    exact ofFloat_natCast (by positivity) hfits
  · obtain ⟨k, rfl⟩ : ∃ k : ℕ, exponent = -(k : ℤ) := ⟨(-exponent).toNat, by omega⟩
    have hvalue : (digits : ℚ) * 10 ^ (-(k : ℤ)) = digits / (10 ^ k : ℕ) := by
      rw [zpow_neg, zpow_natCast, Nat.cast_pow, Nat.cast_ofNat, div_eq_mul_inv]
    rw [if_neg hsign]
    rw [hvalue] at hfits ⊢
    have hk : (-(-(k : ℤ))).toNat = k := by omega
    simp only [hk]
    exact ofFloat_div hdigits (by positivity) hfits

end Turnery.Number
