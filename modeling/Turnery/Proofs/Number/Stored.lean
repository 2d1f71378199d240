import Mathlib
import Turnery.Proofs.Number.Rounded

/-!
# Stored doubles

A finite double that is not zero is stored as a mantissa of 53 bits and an exponent; smaller
mantissas occur with the least exponent only. `unpack_pack` says that such a pair survives being
stored, and `isStored_of_unpack` that nothing else is stored. No two patterns of bits store the
same: `pack_unpack` says that a finite pattern is found again, so that a double is determined by
what it denotes, `Binary64.ofFloat_inj`.
-/

namespace Turnery.Number

open Float.Model (Format UnpackedFloat)
open Float.Model.UnpackedFloat

/-- A mantissa and an exponent as which a double is stored. -/
structure IsStored (mantissa : Nat) (exponent : Int) : Prop where
  pos : 0 < mantissa
  lt : mantissa < 2 ^ 53
  least : -1074 ≤ exponent
  most : exponent ≤ 971
  full : 2 ^ 52 ≤ mantissa ∨ exponent = -1074

/-- The mantissa with its first bit put back. -/
theorem toNat_implicit_append (m : BitVec 52) : (1#1 ++ m).toNat = 2 ^ 52 + m.toNat := by
  rw [BitVec.toNat_append, ← Nat.shiftLeft_add_eq_or_of_lt m.isLt]
  rfl

theorem unpack_packComponents_subnormal (sign : Sign) {m : BitVec 52} (hm : 0 < m.toNat) :
    unpack .binary64 (packComponents .binary64 sign 0#11 m) = .finite sign m.toNat (-1074) hm := by
  have hne : m ≠ 0#52 := by
    rintro rfl
    exact absurd hm (by decide)
  have hones : ¬(0#11 = -1#11) := by decide
  simp only [unpack, unpackMantissa_packComponents, unpackExponent_packComponents,
    unpackSign_packComponents, Sign.ofBitVec_toBitVec, hones, hne, if_false, if_true]
  rfl

theorem unpack_packComponents_normal (sign : Sign) {e : BitVec 11} {m : BitVec 52}
    (hzero : e ≠ 0#11) (hones : e ≠ -1#11) : unpack .binary64 (packComponents .binary64 sign e m) =
      .finite sign (1#1 ++ m).toNat (e.toNat - 1075) (by rw [toNat_implicit_append]; omega) := by
  simp only [unpack, unpackMantissa_packComponents, unpackExponent_packComponents,
    unpackSign_packComponents, Sign.ofBitVec_toBitVec, hones, hzero, if_false]
  rfl

theorem pack_subnormal (sign : Sign) {mantissa : Nat} (hpos : 0 < mantissa)
    (hlt : mantissa < 2 ^ 52) :
    pack .binary64 (.finite sign mantissa (-1074) hpos) =
      packComponents .binary64 sign 0#11 (BitVec.ofNat 52 mantissa) := by
  have hlog : mantissa.log2 < 52 := (Nat.log2_lt (Nat.ne_of_gt hpos)).2 hlt
  have hbits : Format.binary64.mantissaBits = 53 := rfl
  rw [pack, if_neg (by decide), if_neg (by omega)]

theorem pack_normal (sign : Sign) {mantissa biased : Nat} (hfull : 2 ^ 52 ≤ mantissa)
    (hlt : mantissa < 2 ^ 53) (hbiased : biased ≤ 2046) :
    pack .binary64 (.finite sign mantissa (biased - 1075) (by omega)) =
      packComponents .binary64 sign (BitVec.ofNat 11 biased) (BitVec.ofNat 52 mantissa) := by
  have hne : mantissa ≠ 0 := by omega
  have hlow : 52 ≤ mantissa.log2 := (Nat.le_log2 hne).2 hfull
  have hhigh : mantissa.log2 < 53 := (Nat.log2_lt hne).2 hlt
  have hbits : Format.binary64.mantissaBits = 53 := rfl
  have hbias : Format.binary64.exponentBias = 1023 := rfl
  have hexponent : ((biased : Int) - 1075 + Format.binary64.exponentBias +
      Format.binary64.mantissaBitsWithoutImplicit).toNat = biased := by
    rw [hbias]
    show ((biased : Int) - 1075 + (1023 : Nat) + (52 : Nat)).toNat = biased
    omega
  rw [pack, hexponent, if_neg (show ¬2 ^ 11 ≤ biased + 1 by omega), if_pos (by omega)]

/-- What is stored is found again. -/
theorem unpack_pack (sign : Sign) {mantissa : Nat} {exponent : Int}
    (h : IsStored mantissa exponent) :
    unpack .binary64 (pack .binary64 (.finite sign mantissa exponent h.pos)) =
      .finite sign mantissa exponent h.pos := by
  obtain ⟨hpos, hlt, hleast, hmost, hfull⟩ := h
  by_cases hnormal : 2 ^ 52 ≤ mantissa
  · obtain ⟨biased, hbiased⟩ := Int.eq_ofNat_of_zero_le (show 0 ≤ exponent + 1075 by omega)
    obtain rfl : exponent = biased - 1075 := by omega
    have htoNat : (BitVec.ofNat 11 biased).toNat = biased := by
      rw [BitVec.toNat_ofNat, Nat.mod_eq_of_lt (by omega)]
    have hzero : BitVec.ofNat 11 biased ≠ 0#11 := by
      intro heq
      have hvalue := htoNat.symm.trans (congrArg BitVec.toNat heq)
      rw [show (0#11).toNat = 0 from rfl] at hvalue
      omega
    have hones : BitVec.ofNat 11 biased ≠ -1#11 := by
      intro heq
      have hvalue := htoNat.symm.trans (congrArg BitVec.toNat heq)
      rw [show (-1#11).toNat = 2047 from rfl] at hvalue
      omega
    have hmantissa : (1#1 ++ BitVec.ofNat 52 mantissa).toNat = mantissa := by
      rw [toNat_implicit_append, BitVec.toNat_ofNat]
      omega
    rw [pack_normal sign hnormal hlt (by omega), unpack_packComponents_normal sign hzero hones]
    simp only [hmantissa, htoNat]
  · have hsubnormal : mantissa < 2 ^ 52 := Nat.lt_of_not_le hnormal
    have hmantissa : (BitVec.ofNat 52 mantissa).toNat = mantissa := by
      rw [BitVec.toNat_ofNat, Nat.mod_eq_of_lt hsubnormal]
    obtain rfl : exponent = -1074 := hfull.resolve_left hnormal
    rw [pack_subnormal sign hpos hsubnormal,
      unpack_packComponents_subnormal sign (by rw [hmantissa]; exact hpos)]
    simp only [hmantissa]

/-- Nothing else is stored. -/
theorem isStored_of_unpack {bits : BitVec 64} {sign : Sign} {mantissa : Nat} {exponent : Int}
    {hpos : 0 < mantissa} (h : unpack .binary64 bits = .finite sign mantissa exponent hpos) :
    IsStored mantissa exponent := by
  have hbias : Format.binary64.exponentBias = 1023 := rfl
  unfold unpack at h
  dsimp only at h
  rw [hbias] at h
  generalize @unpackExponent .binary64 bits = e at h
  have hm : (@unpackMantissa .binary64 bits).toNat < 2 ^ 52 := BitVec.isLt _
  split at h
  · split at h <;> cases h
  · rename_i hones
    split at h
    · rename_i hzero
      subst hzero
      split at h
      · cases h
      · cases h
        exact ⟨hpos, by omega, by decide, by decide, .inr (by decide)⟩
    · rename_i hzero
      have hlow : e.toNat ≠ 0 := fun h0 => hzero (BitVec.eq_of_toNat_eq h0)
      have hhigh : e.toNat ≠ 2047 := fun h0 => hones (BitVec.eq_of_toNat_eq h0)
      have he : e.toNat < 2 ^ 11 := e.isLt
      cases h
      rw [toNat_implicit_append]
      exact ⟨by omega, by omega, by omega, by omega, .inl (by omega)⟩

/-- A pattern of bits is its three parts. -/
theorem exists_packComponents (bits : BitVec 64) :
    ∃ (sign : Sign) (e : BitVec 11) (m : BitVec 52), bits = packComponents .binary64 sign e m := by
  have hsign : ∀ b : BitVec 1, (Sign.ofBitVec b).toBitVec = b := by
    intro b
    rcases BitVec.eq_zero_or_eq_one b with rfl | rfl <;> rfl
  refine ⟨Sign.ofBitVec (@unpackSign .binary64 bits), @unpackExponent .binary64 bits,
    @unpackMantissa .binary64 bits, ?_⟩
  rw [packComponents, hsign]
  simp only [unpackSign, unpackExponent, unpackMantissa, BitVec.extractLsb]
  ext i hi
  grind

theorem unpack_packComponents_special (sign : Sign) (m : BitVec 52) :
    unpack .binary64 (packComponents .binary64 sign (-1#11) m) =
      if m = 0#52 then .infinity sign else .notANumber := by
  simp only [unpack, unpackMantissa_packComponents, unpackExponent_packComponents,
    unpackSign_packComponents, Sign.ofBitVec_toBitVec, if_true]

theorem unpack_packComponents_zero (sign : Sign) :
    unpack .binary64 (packComponents .binary64 sign 0#11 0#52) = .zero sign :=
  unpack_packedZero

/-- What is found is stored as it was. -/
theorem pack_unpack {bits : BitVec 64} (h : (unpack .binary64 bits).isFinite = true) :
    pack .binary64 (unpack .binary64 bits) = bits := by
  obtain ⟨sign, e, m, rfl⟩ := exists_packComponents bits
  have hm : m.toNat < 2 ^ 52 := m.isLt
  by_cases hones : e = -1#11
  · subst hones
    rw [unpack_packComponents_special] at h
    split at h <;> cases h
  by_cases hzero : e = 0#11
  · subst hzero
    by_cases hnone : m = 0#52
    · subst hnone
      rw [unpack_packComponents_zero]
      rfl
    · have hpos : 0 < m.toNat := Nat.pos_of_ne_zero fun h0 => hnone (BitVec.eq_of_toNat_eq h0)
      rw [unpack_packComponents_subnormal sign hpos, pack_subnormal sign hpos hm,
        BitVec.ofNat_toNat, BitVec.setWidth_eq]
  · have hhigh : e.toNat ≠ 2047 := fun h0 => hones (BitVec.eq_of_toNat_eq h0)
    have he : e.toNat < 2 ^ 11 := e.isLt
    have hvalue := toNat_implicit_append m
    have hmantissa : BitVec.ofNat 52 (1#1 ++ m).toNat = m := by
      refine BitVec.eq_of_toNat_eq ?_
      rw [BitVec.toNat_ofNat, hvalue]
      omega
    rw [unpack_packComponents_normal sign hzero hones,
      pack_normal sign (by omega) (by omega) (by omega), hmantissa, BitVec.ofNat_toNat,
      BitVec.setWidth_eq]

namespace Binary64

theorem ofFloat_pack (sign : Sign) {mantissa : Nat} {exponent : Int}
    (h : IsStored mantissa exponent) :
    ofFloat (.ofModel (.pack (.finite sign mantissa exponent h.pos))) =
      .finite (isNegative sign) mantissa exponent := by
  have hunpack : (Float.Model.pack (.finite sign mantissa exponent h.pos)).unpack = _ :=
    unpack_pack sign h
  rw [ofFloat, hunpack]

theorem ofFloat_pack_zero (sign : Sign) :
    ofFloat (.ofModel (.pack (.zero sign))) = .finite (isNegative sign) 0 0 := by
  have hunpack : (Float.Model.pack (.zero sign)).unpack = _ := unpack_packedZero
  rw [ofFloat, hunpack]

/-- A finite double is zero or stored as what it denotes. -/
theorem isStored_of_ofFloat {x : Float} {negative : Bool} {mantissa : Nat} {exponent : Int}
    (h : ofFloat x = .finite negative mantissa exponent) :
    (mantissa = 0 ∧ exponent = 0) ∨ IsStored mantissa exponent := by
  unfold ofFloat at h
  split at h
  · cases h
  · cases h
  · cases h
    exact .inl ⟨rfl, rfl⟩
  · rename_i hunpack
    cases h
    exact .inr (isStored_of_unpack hunpack)

theorem isNegative_neg (sign : Sign) : isNegative (-sign) = !isNegative sign := by
  cases sign <;> rfl

/-- The opposite double denotes the opposite number. -/
theorem ofFloat_neg {x : Float} {negative : Bool} {mantissa : Nat} {exponent : Int}
    (h : ofFloat x = .finite negative mantissa exponent) :
    ofFloat (-x) = .finite (!negative) mantissa exponent := by
  have hneg : -x = .ofModel (.pack x.toModel.unpack.neg) := rfl
  unfold ofFloat at h
  split at h
  · cases h
  · cases h
  · rename_i sign hunpack
    cases h
    rw [hneg, hunpack, UnpackedFloat.neg, ofFloat_pack_zero, isNegative_neg]
  · rename_i sign m e hm hunpack
    cases h
    rw [hneg, hunpack, UnpackedFloat.neg, ofFloat_pack _ (isStored_of_unpack hunpack),
      isNegative_neg]

theorem isNegative_inj {sign other : Sign} (h : isNegative sign = isNegative other) :
    sign = other := by
  cases sign <;> cases other <;> first | rfl | cases h

/-- A finite double is determined by what it denotes. -/
theorem ofFloat_inj {x y : Float} (hx : x.isFinite = true) (h : ofFloat x = ofFloat y) : x = y := by
  have hunpack : x.toModel.unpack = y.toModel.unpack := by
    have hx : x.toModel.unpack.isFinite = true := hx
    unfold ofFloat at h
    generalize x.toModel.unpack = u at h hx
    generalize y.toModel.unpack = v at h
    cases u with
    | notANumber | infinity => cases hx
    | zero sign =>
      cases v with
      | notANumber | infinity => cases h
      | zero other =>
        injection h with hsign
        rw [isNegative_inj hsign]
      | finite other m e hm =>
        injection h with _ hmantissa
        omega
    | finite sign m e hm =>
      cases v with
      | notANumber | infinity => cases h
      | zero other =>
        injection h with _ hmantissa
        omega
      | finite other m' e' hm' =>
        injection h with hsign hmantissa hexponent
        subst hmantissa hexponent
        rw [isNegative_inj hsign]
  have hbits : x.toModel.toBits = y.toModel.toBits := by
    have hy : y.toModel.unpack.isFinite = true := hunpack ▸ hx
    refine UInt64.toBitVec_inj.1 ?_
    exact (pack_unpack hx).symm.trans ((congrArg _ hunpack).trans (pack_unpack hy))
  obtain ⟨⟨bits, valid⟩⟩ := x
  obtain ⟨⟨bits', valid'⟩⟩ := y
  obtain rfl : bits = bits' := hbits
  rfl

end Binary64

open Binary64 (magnitude)

/-- A rational that is not negative, with a sign put before it. -/
def withSign (negative : Bool) (q : ℚ) : ℚ :=
  if negative then -q else q

@[simp] theorem withSign_zero (negative : Bool) : withSign negative 0 = 0 := by
  cases negative
  · rfl
  · exact neg_zero

theorem abs_withSign (negative : Bool) (q : ℚ) : |withSign negative q| = |q| := by
  cases negative
  · rfl
  · exact abs_neg q

theorem withSign_mul (negative : Bool) (q r : ℚ) :
    withSign negative q * r = withSign negative (q * r) := by
  cases negative
  · rfl
  · exact neg_mul q r

theorem withSign_sub (negative : Bool) (q r : ℚ) :
    withSign negative q - withSign negative r = withSign negative (q - r) := by
  cases negative
  · rfl
  · exact (neg_sub_neg q r).trans (neg_sub q r).symm

/-- The number that a finite double denotes; what is not finite counts as zero. -/
def toRat (x : Float) : ℚ :=
  match Binary64.ofFloat x with
  | .finite negative mantissa exponent => withSign negative (magnitude mantissa exponent)
  | _ => 0

theorem toRat_of_ofFloat {x : Float} {negative : Bool} {mantissa : ℕ} {exponent : ℤ}
    (h : Binary64.ofFloat x = .finite negative mantissa exponent) :
    toRat x = withSign negative (magnitude mantissa exponent) := by
  simp only [toRat, h]

end Turnery.Number
