import Turnery.Proofs.Number.Nearest
import Turnery.Proofs.Number.NearestFloat
import Turnery.Proofs.Number.NonFinite
import Turnery.Proofs.Number.Shortest

/-!
# Arithmetic of doubles

The sum, the difference, the product and the quotient of finite doubles are the doubles nearest to
what they are of the rationals, unless that is beyond the largest double: `isNearest_add`,
`isNearest_sub`, `isNearest_mul` and `isNearest_div`. Comparing doubles is comparing the rationals:
`le_iff_toRat_le`.
-/

namespace Turnery.Number

open Float.Model (Format UnpackedFloat totalExponent)
open Float.Model.UnpackedFloat
open Binary64 (magnitude isNegative)

/-- The double is the one nearest to the rational, or the infinity of its sign if that is beyond the
largest double. -/
structure IsNearest (x : Float) (q : ℚ) : Prop where
  isFinite_iff : x.isFinite = true ↔ rounded |q| < 2 ^ 1024
  toRat_eq : x.isFinite = true → toRat x = nearest q
  ofFloat_eq : x.isFinite = false → Binary64.ofFloat x = .infinite (q < 0)

theorem nearest_withSign (negative : Bool) {q : ℚ} (hq : 0 ≤ q) :
    nearest (withSign negative q) = withSign negative (rounded q) := by
  cases negative with
  | false => exact nearest_of_nonneg hq
  | true => exact (nearest_neg q).trans (congrArg _ (nearest_of_nonneg hq))

theorem withSign_neg_iff (negative : Bool) {q : ℚ} (hq : 0 < q) :
    withSign negative q < 0 ↔ negative = true := by
  cases negative with
  | false => exact iff_of_false (not_lt.2 hq.le) Bool.false_ne_true
  | true => exact iff_of_true (neg_neg_of_pos hq) rfl

/-- A finite double with the right magnitude and sign is the nearest. -/
theorem isNearest_of_ofFloat {x : Float} {negative : Bool} {mantissa : ℕ} {exponent : ℤ} {q : ℚ}
    (hq : 0 ≤ q) (hread : Binary64.ofFloat x = .finite negative mantissa exponent)
    (hvalue : magnitude mantissa exponent = rounded q) (hfits : rounded q < 2 ^ 1024) :
    IsNearest x (withSign negative q) := by
  have hfinite := Binary64.isFinite_iff.2 ⟨_, _, _, hread⟩
  refine ⟨iff_of_true hfinite (by rwa [abs_withSign, abs_of_nonneg hq]), fun _ => ?_,
    fun hinfinite => ?_⟩
  · rw [nearest_withSign _ hq, ← hvalue]
    exact toRat_of_ofFloat hread
  · rw [hfinite] at hinfinite
    cases hinfinite

/-- An exponent that is too large is stored as an infinity. -/
theorem pack_eq_infinity (sign : Sign) {mantissa : ℕ} {exponent : ℤ} (hpos : 0 < mantissa)
    (h : 971 < exponent) :
    Float.Model.pack (.finite sign mantissa exponent hpos) = Float.Model.pack (.infinity sign) := by
  have hlarge : 2 ^ 11 ≤ (exponent + (1023 : ℕ) + (52 : ℕ)).toNat + 1 := by omega
  have hpack : pack .binary64 (.finite sign mantissa exponent hpos) =
    pack .binary64 (.infinity sign) := if_pos hlarge
  simp only [Float.Model.pack, hpack]

theorem isFinite_infinity (sign : Sign) :
    (Float.ofModel (.pack (.infinity sign))).isFinite = false := by
  cases sign <;> rfl

theorem ofFloat_infinity (sign : Sign) :
    Binary64.ofFloat (.ofModel (.pack (.infinity sign))) = .infinite (isNegative sign) := by
  cases sign <;> rfl

/-- A mantissa of 53 bits is stored as the double that it is, unless it is beyond the largest. -/
theorem isNearest_pack_finite (sign : Sign) {mantissa : ℕ} {exponent : ℤ} (hpos : 0 < mantissa)
    (hlt : mantissa < 2 ^ 53) (hleast : -1074 ≤ exponent)
    (hfull : 2 ^ 52 ≤ mantissa ∨ exponent = -1074) {q : ℚ} (hq : 0 < q)
    (hvalue : magnitude mantissa exponent = rounded q) :
    IsNearest (.ofModel (.pack (.finite sign mantissa exponent hpos)))
      (withSign (isNegative sign) q) := by
  by_cases hfits : rounded q < 2 ^ 1024
  · have hstored := isStored_of_magnitude_lt hpos hlt hleast hfull (hvalue ▸ hfits)
    exact isNearest_of_ofFloat hq.le (Binary64.ofFloat_pack sign hstored) hvalue hfits
  · have hlarge : 971 < exponent := by
      by_contra hmost
      have hstored : IsStored mantissa exponent := ⟨hpos, hlt, hleast, not_lt.1 hmost, hfull⟩
      exact hfits (hvalue ▸ hstored.magnitude_lt)
    have hinfinite := isFinite_infinity sign
    rw [pack_eq_infinity sign hpos hlarge]
    refine ⟨iff_of_false ?_ ?_, fun hfinite => ?_, fun _ => ?_⟩
    · rw [hinfinite]
      exact Bool.false_ne_true
    · rwa [abs_withSign, abs_of_pos hq]
    · rw [hinfinite] at hfinite
      cases hfinite
    · rw [ofFloat_infinity, Binary64.infinite.injEq, Bool.eq_iff_iff, decide_eq_true_iff,
        withSign_neg_iff _ hq]

theorem isNearest_pack_zero (sign : Sign) {q : ℚ} (hq : 0 ≤ q) (hzero : rounded q = 0) :
    IsNearest (.ofModel (.pack (.zero sign))) (withSign (isNegative sign) q) :=
  isNearest_of_ofFloat hq (Binary64.ofFloat_pack_zero sign)
    (by rw [hzero, magnitude, Nat.cast_zero, zero_mul])
    (by rw [hzero]; norm_num)

theorem isNearest_zero (sign : Sign) : IsNearest (.ofModel (.pack (.zero sign))) 0 := by
  have hpacked := isNearest_pack_zero sign le_rfl rounded_zero
  rwa [withSign_zero] at hpacked

/-- Cutting off and rounding leads to the nearest double. -/
theorem isNearest_roundWithAccuracy (sign : Sign) {m : ℕ} {e : ℤ} {accuracy : Accuracy} {y : ℚ}
    (hy : Represents (.ofMantissaAndAccuracy m accuracy) y) (hpos : 0 < y)
    (hwhole : 0 < m ∨ e ≤ -1074) (he : e ≤ spacing (y * 2 ^ e)) :
    IsNearest (.ofModel (.pack (roundWithAccuracy .binary64 sign m e accuracy)))
      (withSign (isNegative sign) (y * 2 ^ e)) := by
  have hvaluePos : 0 < y * 2 ^ e := by positivity
  obtain ⟨hzero, hround⟩ | ⟨mantissa, exponent, hmantissa, hlt, hleast, hfull, hvalue, hround⟩ :=
    roundWithAccuracy_cases sign hy hpos hwhole he
  · rw [hround]
    exact isNearest_pack_zero sign hvaluePos.le hzero
  · rw [hround]
    exact isNearest_pack_finite sign hmantissa hlt hleast hfull hvaluePos hvalue

/-- A mantissa of any length with any exponent is rounded to the nearest double. -/
theorem isNearest_round (sign : Sign) {m : ℕ} (hm : 0 < m) (e : ℤ) :
    IsNearest (.ofModel (.pack (round .binary64 sign m e)))
      (withSign (isNegative sign) (magnitude m e)) := by
  have hspacing :=
    targetExponent_eq_spacing (e := e) le_rfl (lt_add_one (m : ℚ)) (by exact_mod_cast hm) (.inl hm)
  -- The exponent is lowered as far as the mantissa needs more bits.
  set shift := (e - Format.binary64.targetExponent (totalExponent m e)).toNat with hshift
  have hvalue : ((m <<< shift : ℕ) : ℚ) * 2 ^ (e - shift) = m * 2 ^ e := by
    rw [Nat.shiftLeft_eq, Nat.cast_mul, Nat.cast_pow, Nat.cast_ofNat, zpow_sub₀ two_ne_zero,
      zpow_natCast]
    field_simp
  have hpos : 0 < m <<< shift := by
    rw [Nat.shiftLeft_eq]
    positivity
  have hresult :=
    isNearest_roundWithAccuracy sign (represents_natCast (m <<< shift)) (by exact_mod_cast hpos)
      (.inl hpos) (e := e - shift) (by rw [hvalue]; omega)
  rw [hvalue] at hresult
  exact hresult

/-- A signed mantissa is rounded to the nearest double. -/
theorem isNearest_normalize (n e : ℤ) (zeroSign : Sign) :
    IsNearest (.ofModel (.pack (UnpackedFloat.normalize .binary64 n e zeroSign))) (n * 2 ^ e) := by
  unfold UnpackedFloat.normalize
  rcases lt_trichotomy n 0 with hneg | rfl | hpos
  · rw [Int.compare_eq_lt.2 hneg]
    obtain ⟨m, rfl⟩ : ∃ m : ℕ, n = -m := ⟨(-n).toNat, by omega⟩
    have hround := isNearest_round .negative (m := m) (by omega) e
    rw [neg_neg, Int.toNat_natCast, Int.cast_neg, Int.cast_natCast, neg_mul]
    exact hround
  · rw [Int.compare_eq_eq.2 rfl, Int.cast_zero, zero_mul]
    exact isNearest_zero zeroSign
  · rw [Int.compare_eq_gt.2 hpos]
    obtain ⟨m, rfl⟩ := Int.eq_ofNat_of_zero_le hpos.le
    have hround := isNearest_round .positive (m := m) (by omega) e
    rw [Int.toNat_natCast, Int.cast_natCast]
    exact hround

/-- The number that an unpacked double stands for; what is not finite counts as zero. -/
def unpackedValue : UnpackedFloat → ℚ
  | .finite sign mantissa exponent _ => withSign (isNegative sign) (magnitude mantissa exponent)
  | _ => 0

def IsUnpacked : UnpackedFloat → Prop
  | .zero _ => True
  | .finite _ mantissa exponent _ => IsStored mantissa exponent
  | _ => False

theorem isNegative_mul (sign other : Sign) :
    isNegative (sign * other) = xor (isNegative sign) (isNegative other) := by
  cases sign <;> cases other <;> rfl

theorem isNegative_div (sign other : Sign) :
    isNegative (sign / other) = xor (isNegative sign) (isNegative other) := by
  cases sign <;> cases other <;> rfl

theorem withSign_xor_mul (negative other : Bool) (q r : ℚ) :
    withSign (xor negative other) (q * r) = withSign negative q * withSign other r := by
  cases negative <;> cases other <;> simp [withSign]

theorem withSign_inv (negative : Bool) (q : ℚ) :
    withSign negative q⁻¹ = (withSign negative q)⁻¹ := by
  cases negative with
  | false => rfl
  | true => exact neg_inv

theorem withSign_isNegative (sign : Sign) (n : ℕ) (e : ℤ) :
    withSign (isNegative sign) (magnitude n e) = (sign.apply n : ℤ) * 2 ^ e := by
  cases sign with
  | positive => rw [Sign.apply, Int.cast_natCast]; rfl
  | negative => rw [Sign.apply, Int.cast_neg, Int.cast_natCast, neg_mul]; rfl

variable {u v : UnpackedFloat}

theorem isNearest_pack (hu : IsUnpacked u) : IsNearest (.ofModel (.pack u)) (unpackedValue u) := by
  cases u with
  | notANumber | infinity => exact hu.elim
  | zero sign => exact isNearest_zero sign
  | finite sign m e hm =>
    have hdouble := isDouble_magnitude hu.lt hu.least
    refine isNearest_pack_finite sign hm hu.lt hu.least hu.full hu.magnitude_pos ?_
    rw [← nearest_of_nonneg hu.magnitude_pos.le, hdouble.nearest_eq]

/-- A mantissa with its exponent lowered stands for the same number. -/
theorem apply_decreaseExponent (sign : Sign) (m : ℕ) {e target : ℤ} (h : target ≤ e) :
    (sign.apply (decreaseExponent m e target).1 : ℤ) * (2 : ℚ) ^ target =
      (sign.apply m : ℤ) * 2 ^ e := by
  have hvalue : ((decreaseExponent m e target).1 : ℚ) * 2 ^ target = m * 2 ^ e := by
    obtain ⟨k, rfl⟩ := Int.le.dest h
    have hshift : (target + (k : ℤ) - target).toNat = k := by omega
    rw [decreaseExponent, hshift, Nat.shiftLeft_eq, zpow_add₀ two_ne_zero, zpow_natCast]
    push_cast
    ring
  cases sign with
  | positive => simpa only [Sign.apply, Int.cast_natCast] using hvalue
  | negative =>
    simpa only [Sign.apply, Int.cast_neg, Int.cast_natCast, neg_mul] using congrArg Neg.neg hvalue

theorem isNearest_unpacked_add (hu : IsUnpacked u) (hv : IsUnpacked v) :
    IsNearest (.ofModel (.pack (u.add .binary64 v))) (unpackedValue u + unpackedValue v) := by
  cases u with
  | notANumber | infinity => exact hu.elim
  | zero sign =>
    rw [show unpackedValue (.zero sign) = 0 from rfl, zero_add]
    cases v with
    | notANumber | infinity => exact hv.elim
    | zero other =>
      rw [UnpackedFloat.add]
      split <;> exact isNearest_zero _
    | finite other m e hm =>
      have hadd : (UnpackedFloat.zero sign).add .binary64 (.finite other m e hm) =
        .finite other m e hm := rfl
      rw [hadd]
      exact isNearest_pack hv
  | finite sign m e hm =>
    cases v with
    | notANumber | infinity => exact hv.elim
    | zero other =>
      have hadd : (UnpackedFloat.finite sign m e hm).add .binary64 (.zero other) =
        .finite sign m e hm := rfl
      rw [show unpackedValue (.zero other) = 0 from rfl, add_zero, hadd]
      exact isNearest_pack hu
    | finite other m' e' hm' =>
      rw [unpackedValue, unpackedValue, withSign_isNegative, withSign_isNegative,
        ← apply_decreaseExponent sign m (min_le_left e e'),
        ← apply_decreaseExponent other m' (min_le_right e e'),
        ← add_mul, ← Int.cast_add, UnpackedFloat.add]
      exact isNearest_normalize _ _ _

/-- Subtracting is adding the opposite. -/
theorem unpacked_sub_eq_add_neg (u v : UnpackedFloat) :
    u.sub .binary64 v = u.add .binary64 v.neg := by
  have happly (sign : Sign) (m : ℕ) : -sign.apply m = (-sign).apply m := by
    cases sign with
    | positive => rfl
    | negative => exact neg_neg _
  cases u with
  | notANumber => cases v <;> rfl
  | infinity | zero => cases v <;> rfl
  | finite sign m e hm =>
    cases v with
    | finite other m' e' hm' =>
      rw [UnpackedFloat.neg, UnpackedFloat.sub, UnpackedFloat.add]
      dsimp only
      rw [sub_eq_add_neg, happly]
    | _ => rfl

theorem isUnpacked_neg (hv : IsUnpacked v) : IsUnpacked v.neg := by
  cases v <;> exact hv

theorem unpackedValue_neg (v : UnpackedFloat) : unpackedValue v.neg = -unpackedValue v := by
  cases v with
  | notANumber | infinity | zero => exact neg_zero.symm
  | finite sign m e hm =>
    rw [UnpackedFloat.neg, unpackedValue, unpackedValue]
    cases sign with
    | positive => rfl
    | negative => exact (neg_neg _).symm

/-- The product of two stored mantissas has an exponent that is not too large to be rounded. -/
theorem exponent_le_spacing_mul {m m' : ℕ} {e e' : ℤ} (h : IsStored m e) (h' : IsStored m' e') :
    e + e' ≤ spacing ((m * m' : ℕ) * 2 ^ (e + e')) := by
  by_cases hbits : 2 ^ 52 ≤ m * m'
  · have hlow := le_spacing (Binary64.two_zpow_le_magnitude hbits (e + e'))
    rw [magnitude] at hlow
    omega
  · -- Only numbers of the finest spacing have so short a product.
    have hm : m < 2 ^ 52 := lt_of_le_of_lt (Nat.le_mul_of_pos_right m h'.pos) (not_le.1 hbits)
    have hleast := h.full.resolve_left (not_le.2 hm)
    have hspacing : -1074 ≤ spacing ((m * m' : ℕ) * 2 ^ (e + e')) := le_max_right _ _
    have hm' : m' < 2 ^ 52 := lt_of_le_of_lt (Nat.le_mul_of_pos_left m' h.pos) (not_le.1 hbits)
    have hleast' := h'.full.resolve_left (not_le.2 hm')
    omega

theorem isNearest_unpacked_mul (hu : IsUnpacked u) (hv : IsUnpacked v) :
    IsNearest (.ofModel (.pack (u.mul .binary64 v))) (unpackedValue u * unpackedValue v) := by
  cases u with
  | notANumber | infinity => exact hu.elim
  | zero sign =>
    rw [show unpackedValue (.zero sign) = 0 from rfl, zero_mul]
    cases v with
    | notANumber | infinity => exact hv.elim
    | zero | finite => exact isNearest_zero _
  | finite sign m e hm =>
    cases v with
    | notANumber | infinity => exact hv.elim
    | zero other =>
      rw [show unpackedValue (.zero other) = 0 from rfl, mul_zero]
      exact isNearest_zero _
    | finite other m' e' hm' =>
      have hproduct : magnitude m e * magnitude m' e' = (m * m' : ℕ) * 2 ^ (e + e') := by
        rw [magnitude, magnitude, zpow_add₀ two_ne_zero, Nat.cast_mul]
        ring
      have hpos : 0 < m * m' := Nat.mul_pos hm hm'
      rw [unpackedValue, unpackedValue, ← withSign_xor_mul, ← isNegative_mul, hproduct]
      exact isNearest_roundWithAccuracy _ (represents_natCast (m * m')) (by exact_mod_cast hpos)
        (.inl hpos)
        (exponent_le_spacing_mul hu hv)

theorem isNearest_unpacked_div (hu : IsUnpacked u) (hv : IsUnpacked v)
    (hzero : unpackedValue v ≠ 0) :
    IsNearest (.ofModel (.pack (u.div .binary64 v))) (unpackedValue u / unpackedValue v) := by
  cases v with
  | notANumber | infinity => exact hv.elim
  | zero => exact absurd rfl hzero
  | finite other m' e' hm' =>
    cases u with
    | notANumber | infinity => exact hu.elim
    | zero sign =>
      rw [show unpackedValue (.zero sign) = 0 from rfl, zero_div]
      exact isNearest_zero _
    | finite sign m e hm =>
      obtain ⟨k, target, accuracy, y, hdiv, hy, hpos, hwhole, hvalue, hspacing⟩ :=
        exists_div_eq_roundWithAccuracy sign other e e' hm hm'
      rw [unpackedValue, unpackedValue, div_eq_mul_inv, ← withSign_inv, ← withSign_xor_mul,
        ← isNegative_div, ← div_eq_mul_inv, ← hvalue, hdiv]
      exact isNearest_roundWithAccuracy _ hy hpos hwhole hspacing

theorem compare_magnitude {m m' : ℕ} {e e' : ℤ} (h : IsStored m e) (h' : IsStored m' e') :
    compare (magnitude m e) (magnitude m' e') = (compare e e').then (compare m m') := by
  rcases lt_trichotomy e e' with hlt | rfl | hgt
  · rw [Int.compare_eq_lt.2 hlt, compare_lt_iff_lt.2 (h.magnitude_lt_of_lt h' hlt)]
    rfl
  · have hstep : (0 : ℚ) < 2 ^ e := by positivity
    rw [Int.compare_eq_eq.2 rfl, magnitude, magnitude, Ordering.eq_then]
    rcases lt_trichotomy m m' with hlt | rfl | hgt
    · rw [Nat.compare_eq_lt.2 hlt, compare_lt_iff_lt]
      exact mul_lt_mul_of_pos_right (by exact_mod_cast hlt) hstep
    · rw [Nat.compare_eq_eq.2 rfl, compare_eq_iff_eq]
    · rw [Nat.compare_eq_gt.2 hgt, compare_gt_iff_gt]
      exact mul_lt_mul_of_pos_right (by exact_mod_cast hgt) hstep
  · rw [Int.compare_eq_gt.2 hgt, compare_gt_iff_gt.2 (h'.magnitude_lt_of_lt h hgt)]
    rfl

theorem compare_neg_neg (q r : ℚ) : compare (-q) (-r) = (compare q r).swap := by
  rcases lt_trichotomy q r with hlt | rfl | hgt
  · rw [compare_lt_iff_lt.2 hlt, compare_gt_iff_gt.2 (neg_lt_neg hlt)]
    rfl
  · rw [compare_eq_iff_eq.2 rfl, compare_eq_iff_eq.2 rfl]
    rfl
  · rw [compare_gt_iff_gt.2 hgt, compare_lt_iff_lt.2 (neg_lt_neg hgt)]
    rfl

theorem compare_unpackedValue (hu : IsUnpacked u) (hv : IsUnpacked v) :
    u.compare v = some (compare (unpackedValue u) (unpackedValue v)) := by
  cases u with
  | notANumber | infinity => exact hu.elim
  | zero sign =>
    cases v with
    | notANumber | infinity => exact hv.elim
    | zero other => exact congrArg some (compare_eq_iff_eq.2 rfl).symm
    | finite other m' e' hm' =>
      cases other with
      | positive => exact congrArg some (compare_lt_iff_lt.2 hv.magnitude_pos).symm
      | negative => exact congrArg some (compare_gt_iff_gt.2 (neg_neg_of_pos hv.magnitude_pos)).symm
  | finite sign m e hm =>
    cases v with
    | notANumber | infinity => exact hv.elim
    | zero other =>
      cases sign with
      | positive => exact congrArg some (compare_gt_iff_gt.2 hu.magnitude_pos).symm
      | negative => exact congrArg some (compare_lt_iff_lt.2 (neg_neg_of_pos hu.magnitude_pos)).symm
    | finite other m' e' hm' =>
      cases sign with
      | positive =>
        cases other with
        | positive => exact congrArg some (compare_magnitude hu hv).symm
        | negative =>
          exact congrArg some (compare_gt_iff_gt.2
            ((neg_neg_of_pos hv.magnitude_pos).trans hu.magnitude_pos)).symm
      | negative =>
        cases other with
        | positive =>
          exact congrArg some (compare_lt_iff_lt.2
            ((neg_neg_of_pos hu.magnitude_pos).trans hv.magnitude_pos)).symm
        | negative =>
          rw [unpackedValue, unpackedValue]
          exact congrArg some ((congrArg _ (compare_magnitude hu hv).symm).trans
            (compare_neg_neg _ _).symm)

variable {x y : Float}

theorem toRat_eq_unpackedValue (x : Float) : toRat x = unpackedValue x.toModel.unpack := by
  unfold toRat Binary64.ofFloat
  cases x.toModel.unpack with
  | notANumber | infinity => rfl
  | zero sign => cases sign <;> simp [withSign, magnitude, unpackedValue]
  | finite sign m e hm => rfl

theorem isUnpacked_of_isFinite (h : x.isFinite = true) : IsUnpacked x.toModel.unpack := by
  change x.toModel.unpack.isFinite = true at h
  cases hunpack : x.toModel.unpack with
  | notANumber | infinity =>
    rw [hunpack] at h
    cases h
  | zero => trivial
  | finite sign m e hm => exact isStored_of_unpack hunpack

theorem isNearest_toRat (h : x.isFinite = true) : IsNearest x (toRat x) := by
  obtain ⟨negative, mantissa, exponent, hread⟩ := Binary64.isFinite_iff.1 h
  have hnonneg := Binary64.magnitude_nonneg mantissa exponent
  have hdouble : IsDouble (magnitude mantissa exponent) ∧
      magnitude mantissa exponent < 2 ^ 1024 := by
    rcases Binary64.isStored_of_ofFloat hread with ⟨rfl, rfl⟩ | hstored
    · exact ⟨isDouble_magnitude (by norm_num) (by norm_num),
        by rw [magnitude, Nat.cast_zero, zero_mul]; norm_num⟩
    · exact ⟨isDouble_magnitude hstored.lt hstored.least, hstored.magnitude_lt⟩
  have hrounded : magnitude mantissa exponent = rounded (magnitude mantissa exponent) := by
    rw [← nearest_of_nonneg hnonneg, hdouble.1.nearest_eq]
  rw [toRat_of_ofFloat hread]
  exact isNearest_of_ofFloat hnonneg hread hrounded (hrounded ▸ hdouble.2)

theorem isNearest_add (hx : x.isFinite = true) (hy : y.isFinite = true) :
    IsNearest (x + y) (toRat x + toRat y) := by
  rw [toRat_eq_unpackedValue, toRat_eq_unpackedValue]
  exact isNearest_unpacked_add (isUnpacked_of_isFinite hx) (isUnpacked_of_isFinite hy)

theorem isNearest_sub (hx : x.isFinite = true) (hy : y.isFinite = true) :
    IsNearest (x - y) (toRat x - toRat y) := by
  rw [toRat_eq_unpackedValue, toRat_eq_unpackedValue, sub_eq_add_neg, ← unpackedValue_neg]
  have hadd :=
    isNearest_unpacked_add (isUnpacked_of_isFinite hx) (isUnpacked_neg (isUnpacked_of_isFinite hy))
  rw [← unpacked_sub_eq_add_neg] at hadd
  exact hadd

theorem isNearest_mul (hx : x.isFinite = true) (hy : y.isFinite = true) :
    IsNearest (x * y) (toRat x * toRat y) := by
  rw [toRat_eq_unpackedValue, toRat_eq_unpackedValue]
  exact isNearest_unpacked_mul (isUnpacked_of_isFinite hx) (isUnpacked_of_isFinite hy)

theorem isNearest_div (hx : x.isFinite = true) (hy : y.isFinite = true) (hzero : toRat y ≠ 0) :
    IsNearest (x / y) (toRat x / toRat y) := by
  rw [toRat_eq_unpackedValue] at hzero ⊢
  rw [toRat_eq_unpackedValue]
  exact isNearest_unpacked_div (isUnpacked_of_isFinite hx) (isUnpacked_of_isFinite hy) hzero

theorem le_iff_compare : x ≤ y ↔ (x.toModel.unpack.compare y.toModel.unpack).any (·.isLE) = true :=
  decide_eq_true_iff

theorem lt_iff_compare : x < y ↔ x.toModel.unpack.compare y.toModel.unpack = some .lt :=
  decide_eq_true_iff.trans beq_iff_eq

theorem beq_iff_compare :
    (x == y) = true ↔ x.toModel.unpack.compare y.toModel.unpack = some .eq := by
  change (x.toModel.unpack.compare y.toModel.unpack == some .eq) = true ↔ _
  exact beq_iff_eq

theorem le_iff_toRat_le (hx : x.isFinite = true) (hy : y.isFinite = true) :
    x ≤ y ↔ toRat x ≤ toRat y := by
  have hcompare := compare_unpackedValue (isUnpacked_of_isFinite hx) (isUnpacked_of_isFinite hy)
  rw [← toRat_eq_unpackedValue, ← toRat_eq_unpackedValue] at hcompare
  rw [le_iff_compare, hcompare, Option.any_some, Ordering.isLE_iff_ne_gt, compare_gt_iff_gt, not_lt]

theorem lt_iff_toRat_lt (hx : x.isFinite = true) (hy : y.isFinite = true) :
    x < y ↔ toRat x < toRat y := by
  have hcompare := compare_unpackedValue (isUnpacked_of_isFinite hx) (isUnpacked_of_isFinite hy)
  rw [← toRat_eq_unpackedValue, ← toRat_eq_unpackedValue] at hcompare
  rw [lt_iff_compare, hcompare, Option.some.injEq, compare_lt_iff_lt]

theorem beq_iff_toRat_eq (hx : x.isFinite = true) (hy : y.isFinite = true) :
    (x == y) = true ↔ toRat x = toRat y := by
  have hcompare := compare_unpackedValue (isUnpacked_of_isFinite hx) (isUnpacked_of_isFinite hy)
  rw [← toRat_eq_unpackedValue, ← toRat_eq_unpackedValue] at hcompare
  rw [beq_iff_compare, hcompare, Option.some.injEq, compare_eq_iff_eq]

theorem toRat_zero : (0 : Float).isFinite = true ∧ toRat 0 = 0 := by
  have hread : Binary64.ofFloat 0 = .finite false 0 0 := by decide +kernel
  refine ⟨Binary64.isFinite_iff.2 ⟨_, _, _, hread⟩, ?_⟩
  rw [toRat_of_ofFloat hread, magnitude, Nat.cast_zero, zero_mul]
  rfl

theorem pos_iff_toRat_pos (hx : x.isFinite = true) : 0 < x ↔ 0 < toRat x := by
  rw [lt_iff_toRat_lt toRat_zero.1 hx, toRat_zero.2]

theorem nonpos_iff_toRat_nonpos (hx : x.isFinite = true) : x ≤ 0 ↔ toRat x ≤ 0 := by
  rw [le_iff_toRat_le hx toRat_zero.1, toRat_zero.2]

theorem exists_unpack_of_infinite {negative : Bool} (h : Binary64.ofFloat x = .infinite negative) :
    ∃ sign, isNegative sign = negative ∧ x.toModel.unpack = .infinity sign := by
  unfold Binary64.ofFloat at h
  split at h
  · cases h
  · rename_i sign hunpack
    exact ⟨sign, Binary64.infinite.inj h, hunpack⟩
  · cases h
  · cases h

theorem le_infinity (hx : x.isNaN = false) (hy : Binary64.ofFloat y = .infinite false) : x ≤ y := by
  obtain ⟨sign, hsign, hunpack⟩ := exists_unpack_of_infinite hy
  change x.toModel.unpack.isNaN = false at hx
  rw [le_iff_compare, hunpack]
  cases sign with
  | negative => cases hsign
  | positive =>
    cases hux : x.toModel.unpack with
    | notANumber =>
      rw [hux] at hx
      cases hx
    | infinity other => cases other <;> rfl
    | zero other => rfl
    | finite other => cases other <;> rfl

theorem negInfinity_le (hx : Binary64.ofFloat x = .infinite true) (hy : y.isNaN = false) :
    x ≤ y := by
  obtain ⟨sign, hsign, hunpack⟩ := exists_unpack_of_infinite hx
  change y.toModel.unpack.isNaN = false at hy
  rw [le_iff_compare, hunpack]
  cases sign with
  | positive => cases hsign
  | negative =>
    cases huy : y.toModel.unpack with
    | notANumber =>
      rw [huy] at hy
      cases hy
    | infinity other => cases other <;> rfl
    | zero other => rfl
    | finite other => cases other <;> rfl

theorem not_le_negInfinity (hx : x.isFinite = true) (hy : Binary64.ofFloat y = .infinite true) :
    ¬x ≤ y := by
  obtain ⟨sign, hsign, hunpack⟩ := exists_unpack_of_infinite hy
  have hux := isUnpacked_of_isFinite hx
  rw [le_iff_compare, hunpack]
  cases sign with
  | positive => cases hsign
  | negative =>
    cases hx' : x.toModel.unpack with
    | notANumber | infinity =>
      rw [hx'] at hux
      exact hux.elim
    | zero other => exact Bool.false_ne_true
    | finite other => cases other <;> exact Bool.false_ne_true

section IsNearest

variable {q r : ℚ}

theorem IsNearest.isNaN_eq (h : IsNearest x q) : x.isNaN = false := by
  cases hfinite : x.isFinite with
  | true => exact isNaN_of_isFinite hfinite
  | false =>
    obtain ⟨sign, -, hunpack⟩ := exists_unpack_of_infinite (h.ofFloat_eq hfinite)
    change x.toModel.unpack.isNaN = false
    rw [hunpack]
    rfl

/-- What is smaller than something finite is finite. -/
theorem IsNearest.isFinite_of_le (hx : IsNearest x q) (hy : IsNearest y r) (h : |q| ≤ |r|)
    (hfinite : y.isFinite = true) :
    x.isFinite = true := by
  have hmono := nearest_mono h
  rw [nearest_of_nonneg (abs_nonneg q), nearest_of_nonneg (abs_nonneg r)] at hmono
  exact hx.isFinite_iff.2 (hmono.trans_lt (hy.isFinite_iff.1 hfinite))

/-- Rounding keeps the order, also beyond the largest double. -/
theorem IsNearest.le (hx : IsNearest x q) (hy : IsNearest y r) (h : q ≤ r) : x ≤ y := by
  by_cases hboth : x.isFinite = true ∧ y.isFinite = true
  · rw [le_iff_toRat_le hboth.1 hboth.2, hx.toRat_eq hboth.1, hy.toRat_eq hboth.2]
    exact nearest_mono h
  rcases lt_or_ge q 0 with hq | hq
  · cases hxf : x.isFinite with
    | false =>
      have hread := hx.ofFloat_eq hxf
      rw [decide_eq_true hq] at hread
      exact negInfinity_le hread hy.isNaN_eq
    | true =>
      have hyf : y.isFinite = false := Bool.eq_false_iff.2 fun hyf => hboth ⟨hxf, hyf⟩
      have hr : 0 ≤ r := by
        by_contra hr
        rw [not_le] at hr
        refine hboth ⟨hxf, hy.isFinite_of_le hx ?_ hxf⟩
        rw [abs_of_neg hr, abs_of_neg hq]
        exact neg_le_neg h
      have hread := hy.ofFloat_eq hyf
      rw [decide_eq_false (not_lt.2 hr)] at hread
      exact le_infinity hx.isNaN_eq hread
  · have hr : 0 ≤ r := hq.trans h
    have hyf : y.isFinite = false := by
      refine Bool.eq_false_iff.2 fun hyf => hboth ⟨hx.isFinite_of_le hy ?_ hyf, hyf⟩
      rwa [abs_of_nonneg hq, abs_of_nonneg hr]
    have hread := hy.ofFloat_eq hyf
    rw [decide_eq_false (not_lt.2 hr)] at hread
    exact le_infinity hx.isNaN_eq hread

/-- What is not beyond a power of two is finite. -/
theorem IsNearest.isFinite_of_abs_le (hx : IsNearest x q) {k : ℤ} (hleast : -1074 ≤ k)
    (hk : k < 1024) (hq : |q| ≤ 2 ^ k) : x.isFinite = true ∧ |toRat x| ≤ 2 ^ k := by
  have hpower := isDouble_two_zpow hleast
  have hrounded : rounded |q| ≤ 2 ^ k := by
    rw [← nearest_of_nonneg (abs_nonneg q)]
    exact hpower.nearest_le hq
  have hfits : (2 : ℚ) ^ k < 2 ^ 1024 := by
    rw [← zpow_natCast]
    exact zpow_lt_zpow_right₀ (by norm_num) hk
  have hfinite := hx.isFinite_iff.2 (hrounded.trans_lt hfits)
  refine ⟨hfinite, ?_⟩
  rwa [hx.toRat_eq hfinite, abs_nearest]

end IsNearest

theorem abs_toRat_le (x : Float) : |toRat x| ≤ (2 ^ 53 - 1) * 2 ^ (971 : ℤ) := by
  cases hx : Binary64.ofFloat x with
  | nan | infinite =>
    simp only [toRat, hx, abs_zero]
    positivity
  | finite negative mantissa exponent =>
    rw [toRat_of_ofFloat hx, abs_withSign, abs_of_nonneg (Binary64.magnitude_nonneg _ _)]
    rcases Binary64.isStored_of_ofFloat hx with ⟨rfl, rfl⟩ | hstored
    · rw [magnitude, Nat.cast_zero, zero_mul]
      positivity
    · have hstep : (2 : ℚ) ^ exponent ≤ 2 ^ (971 : ℤ) :=
        zpow_le_zpow_right₀ (by norm_num) hstored.most
      exact hstored.magnitude_le.trans (mul_le_mul_of_nonneg_left hstep (by norm_num))

/-- What is small against the largest double can be added to any. -/
theorem isFinite_add (hx : x.isFinite = true) (hy : y.isFinite = true)
    (hsmall : |toRat y| ≤ 2 ^ (900 : ℤ)) :
    (x + y).isFinite = true := by
  refine (isNearest_add hx hy).isFinite_iff.2 ?_
  have hnear := abs_nearest_sub_le (toRat x + toRat y) (isDouble_toRat x)
  rw [sub_add_cancel_left, abs_neg] at hnear
  have hsum := abs_add_le (toRat x) (toRat y)
  have htriangle :=
    abs_add_le (nearest (toRat x + toRat y) - (toRat x + toRat y)) (toRat x + toRat y)
  rw [sub_add_cancel, abs_nearest] at htriangle
  have hlargest := abs_toRat_le x
  have hlargest' : (2 : ℚ) ^ (971 : ℤ) = 2 ^ (71 : ℤ) * 2 ^ (900 : ℤ) := by
    rw [← zpow_add₀ two_ne_zero]; rfl
  have hlimit : (2 : ℚ) ^ 1024 = 2 ^ (124 : ℤ) * 2 ^ (900 : ℤ) := by
    rw [← zpow_natCast, ← zpow_add₀ two_ne_zero]
    rfl
  have hpos : (0 : ℚ) < 2 ^ (900 : ℤ) := by positivity
  rw [hlargest'] at hlargest
  rw [hlimit]
  generalize (2 : ℚ) ^ (900 : ℤ) = step at *
  norm_num at hlargest ⊢
  linarith only [hlargest, hnear, hsum, hsmall, htriangle, hpos]

theorem not_le_of_isNaN (h : x.isNaN = true) : ¬x ≤ y := by
  change x.toModel.unpack.isNaN = true at h
  rw [le_iff_compare]
  cases hx : x.toModel.unpack with
  | notANumber => exact Bool.false_ne_true
  | infinity | zero | finite =>
    rw [hx] at h
    cases h

/-- What lies between two doubles is neither an infinity nor no number. -/
theorem isFinite_of_lt_of_lt {z : Float} (hy : y < x) (hz : x < z) : x.isFinite = true := by
  rw [lt_iff_compare] at hy hz
  change x.toModel.unpack.isFinite = true
  cases hx : x.toModel.unpack with
  | zero | finite => rfl
  | notANumber =>
    rw [hx] at hz
    cases hz
  | infinity sign =>
    rw [hx] at hy hz
    cases sign with
    | positive => cases huz : z.toModel.unpack with
      | infinity other => rw [huz] at hz; cases other <;> cases hz
      | _ => rw [huz] at hz; cases hz
    | negative => cases huy : y.toModel.unpack with
      | infinity other => rw [huy] at hy; cases other <;> cases hy
      | finite other => rw [huy] at hy; cases other <;> cases hy
      | _ => rw [huy] at hy; cases hy

theorem unpack_pack_notANumber : (Float.Model.pack .notANumber).unpack = .notANumber := by
  rfl

/-- An infinity times zero is no number. -/
theorem unpack_mul_zero {negative : Bool} (hx : Binary64.ofFloat x = .infinite negative)
    (hy : y.isFinite = true) (hzero : toRat y = 0) : (x * y).toModel.unpack = .notANumber := by
  obtain ⟨sign, -, hunpack⟩ := exists_unpack_of_infinite hx
  have huy := isUnpacked_of_isFinite hy
  rw [toRat_eq_unpackedValue] at hzero
  change (Float.Model.pack (x.toModel.unpack.mul .binary64 y.toModel.unpack)).unpack = .notANumber
  rw [hunpack]
  cases hy' : y.toModel.unpack with
  | notANumber | infinity =>
    rw [hy'] at huy
    exact huy.elim
  | zero other => exact unpack_pack_notANumber
  | finite other m e hm =>
    rw [hy'] at huy hzero
    have habs := abs_withSign (isNegative other) (magnitude m e)
    rw [unpackedValue] at hzero
    rw [hzero, abs_zero] at habs
    exact absurd habs.symm (abs_pos.2 huy.magnitude_pos.ne').ne'

theorem isNaN_add (hy : y.toModel.unpack = .notANumber) : (x + y).isNaN = true := by
  have hadd : x.toModel.unpack.add .binary64 .notANumber = .notANumber := by
    cases x.toModel.unpack <;> rfl
  change (Float.Model.pack (x.toModel.unpack.add .binary64 y.toModel.unpack)).unpack.isNaN = true
  rw [hy, hadd, unpack_pack_notANumber]
  rfl

theorem toRat_one :
    (Float.ofBits 0x3FF0000000000000).isFinite = true ∧
      toRat (Float.ofBits 0x3FF0000000000000) = 1 := by
  have hread : Binary64.ofFloat (Float.ofBits 0x3FF0000000000000) =
    .finite false (2 ^ 52) (-52) := by decide +kernel
  refine ⟨Binary64.isFinite_iff.2 ⟨_, _, _, hread⟩, ?_⟩
  rw [toRat_of_ofFloat hread, magnitude]
  norm_num [withSign]

/-- A natural number is converted to the nearest double, whichever way the conversion takes. -/
theorem toRat_ofNat {n : ℕ} (h : n < 2 ^ 64) :
    (Float.ofNat n).isFinite = true ∧ toRat (Float.ofNat n) = nearest n := by
  have hnonneg : (0 : ℚ) ≤ n := n.cast_nonneg
  have hle : nearest n ≤ 2 ^ (64 : ℤ) :=
    (isDouble_two_zpow (by norm_num)).nearest_le (by exact_mod_cast h.le)
  have hge : 0 ≤ nearest n := isDouble_zero.le_nearest hnonneg
  change (Float.ofScientific n false 0).isFinite = true ∧
    toRat (Float.ofScientific n false 0) = nearest n
  unfold Float.ofScientific
  split
  · -- A small number is converted by itself and multiplied by one.
    have hcast : (n.toUInt64.toNat : ℚ) * 2 ^ (0 : ℤ) = n := by
      rw [zpow_zero, mul_one, Nat.toUInt64, UInt64.toNat_ofNat_of_lt' h]
    have hwhole : IsNearest n.toUInt64.toFloat n := by
      have hnormal := isNearest_normalize n.toUInt64.toNat 0 .positive
      rw [Int.cast_natCast, hcast] at hnormal
      exact hnormal
    have hpower : |(n : ℚ)| ≤ 2 ^ (64 : ℤ) := by
      rw [abs_of_nonneg hnonneg]
      exact_mod_cast h.le
    obtain ⟨hfinite, -⟩ := hwhole.isFinite_of_abs_le (by norm_num) (by norm_num) hpower
    have hproduct := isNearest_mul hfinite toRat_one.1
    rw [toRat_one.2, mul_one, hwhole.toRat_eq hfinite] at hproduct
    have hbound : |nearest n| ≤ 2 ^ (64 : ℤ) := by rwa [abs_of_nonneg hge]
    obtain ⟨hfinite', -⟩ := hproduct.isFinite_of_abs_le (by norm_num) (by norm_num) hbound
    exact ⟨hfinite', (hproduct.toRat_eq hfinite').trans (isDouble_nearest _).nearest_eq⟩
  · have hvalue : (n : ℚ) * 10 ^ (0 : ℤ) = n := by rw [zpow_zero, mul_one]
    have hfits : rounded (n * 10 ^ (0 : ℤ)) < 2 ^ 1024 := by
      rw [hvalue, ← nearest_of_nonneg hnonneg]
      refine hle.trans_lt ?_
      rw [← zpow_natCast]
      exact zpow_lt_zpow_right₀ (by norm_num) (by norm_num)
    obtain ⟨mantissa, exponent, hread, hmagnitude⟩ := ofFloat_nearestFloat hfits
    rw [hvalue, ← nearest_of_nonneg hnonneg] at hmagnitude
    exact ⟨Binary64.isFinite_iff.2 ⟨_, _, _, hread⟩, (toRat_of_ofFloat hread).trans hmagnitude⟩

end Turnery.Number
