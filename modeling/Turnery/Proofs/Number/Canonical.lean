import Turnery.Gcode.Line
import Turnery.Proofs.Number.FloatStyle
import Turnery.Proofs.Number.Stored

/-!
# Decimals in canonical form

What is written for a finite double is the one decimal of its kind that denotes the nearest multiple
of a power of ten. `IsNearestEven` says which multiple that is, `written?` which number a text
denotes, and `IsCanonical` which of the texts that denote a number is written. `number_canonical`
puts them together for the words of a program.
-/

namespace Turnery.Number

open Binary64 (magnitude)

/-- No integer is nearer to the rational, and if another one is as near, this one is even. -/
structure IsNearestEven (q : ℚ) (k : ℤ) : Prop where
  nearest : ∀ j : ℤ, |q - k| ≤ |q - j|
  even : ∀ j : ℤ, j ≠ k → |q - j| = |q - k| → Even k

namespace IsNearestEven

variable {q : ℚ} {k j : ℤ}

theorem abs_sub_le_half (h : IsNearestEven q k) : |q - k| ≤ 1 / 2 :=
  (h.nearest (round q)).trans (abs_sub_round q)

theorem of_abs_sub_le (h : |q - k| ≤ 1 / 2) (even : |q - k| = 1 / 2 → Even k) :
    IsNearestEven q k := by
  have far : ∀ j : ℤ, j ≠ k → 1 / 2 ≤ |q - j| := by
    intro j hj
    rw [abs_sub_comm] at h ⊢
    exact half_le_abs_sub_of_ne h hj
  refine ⟨fun j => ?_, fun j hj heq => ?_⟩
  · by_cases hj : j = k
    · rw [hj]
    · exact h.trans (far j hj)
  · have hfar := far j hj
    exact even (le_antisymm h (heq ▸ hfar))

theorem unique (h : IsNearestEven q k) (h' : IsNearestEven q j) : j = k := by
  by_contra hne
  have hsame : |q - j| = |q - k| := le_antisymm (h'.nearest k) (h.nearest j)
  have hk := h.even j hne hsame
  have hj := h'.even k (Ne.symm hne) hsame.symm
  -- Two even integers are not both within one half of a rational.
  have hgap : |(j : ℚ) - k| ≤ 1 := by
    have htriangle := abs_sub_le (j : ℚ) q k
    rw [abs_sub_comm (j : ℚ) q] at htriangle
    have hnear := h.abs_sub_le_half
    have hnear' := h'.abs_sub_le_half
    linarith
  have hgap' : |j - k| ≤ 1 := by exact_mod_cast hgap
  obtain ⟨a, rfl⟩ := hk
  obtain ⟨b, rfl⟩ := hj
  have := abs_le.1 hgap'
  omega

end IsNearestEven

/-- Half a unit away from a rational there is no other nearest natural number unless that one is
odd. -/
theorem even_nearestNat_of_tie {q : ℚ} (hq : 0 ≤ q) (h : |(nearestNat .toEven q : ℚ) - q| = 1 / 2) :
    Even (nearestNat .toEven q) := by
  generalize hn : nearestNat .toEven q = n at h
  rw [Nat.even_iff]
  rcases (abs_eq (by norm_num)).1 h with hbelow | habove
  · obtain ⟨k, rfl⟩ : ∃ k, n = k + 1 := by
      refine Nat.exists_eq_succ_of_ne_zero ?_
      rintro rfl
      norm_num at hbelow
      linarith
    have hvalue : q = (k : ℚ) + 1 / 2 := by
      push_cast at hbelow
      linarith
    rw [hvalue, nearestNat_tie] at hn
    simp only [Tie.goesUp, beq_iff_eq] at hn
    split at hn <;> omega
  · have hvalue : q = (n : ℚ) + 1 / 2 := by linarith
    rw [hvalue, nearestNat_tie] at hn
    simp only [Tie.goesUp, beq_iff_eq] at hn
    split at hn <;> omega

/-- The units of a decimal, with the sign of the double. -/
def signedUnits (negative : Bool) (units : ℕ) : ℤ :=
  if negative then -units else units

theorem cast_signedUnits (negative : Bool) (units : ℕ) :
    (signedUnits negative units : ℚ) = withSign negative units := by
  cases negative
  · exact Int.cast_natCast units
  · exact (Int.cast_neg _).trans (congrArg _ (Int.cast_natCast units))

theorem even_signedUnits {negative : Bool} {units : ℕ} (h : Even units) :
    Even (signedUnits negative units) := by
  cases negative
  · exact (Int.even_coe_nat units).2 h
  · exact ((Int.even_coe_nat units).2 h).neg

/-- A sign does not matter for what is nearest. -/
theorem isNearestEven_signedUnits (negative : Bool) {q : ℚ} (hq : 0 ≤ q) :
    IsNearestEven (withSign negative q) (signedUnits negative (nearestNat .toEven q)) := by
  have hdistance : |withSign negative q - (signedUnits negative (nearestNat .toEven q) : ℤ)| =
      |(nearestNat .toEven q : ℚ) - q| := by
    rw [cast_signedUnits, withSign_sub, abs_withSign, abs_sub_comm]
  refine .of_abs_sub_le ?_ fun htie => ?_
  · rw [hdistance]
    exact abs_nearestNat_sub_le .toEven hq
  · rw [hdistance] at htie
    exact even_signedUnits (even_nearestNat_of_tie hq htie)

/-- The number that a text denotes, if it is a numeral. -/
def written? (text : List Char) : Option ℚ :=
  (unsigned? (splitSign text).2).map fun (ds, e) => withSign (splitSign text).1 (ds * 10 ^ e)

theorem written?_of_isUnsigned (negative : Bool) {body : List Char} (h : IsUnsigned body) {ds : ℕ}
    {e : ℤ} (hread : unsigned? body = some (ds, e)) :
    written? ((if negative then ['-'] else []) ++ body) =
      some (withSign negative (ds * 10 ^ e)) := by
  cases negative with
  | true => simp [written?, splitSign, hread]
  | false => simp [written?, splitSign_of_isUnsigned h, hread]

/-- Nothing, or a point and digits of which the last is not zero. -/
inductive IsTrimmedFraction (places : ℕ) : List Char → Prop where
  | none : IsTrimmedFraction places []
  | some {ds : List Char} (digits : IsDigits ds) (length : ds.length ≤ places)
    (last : ds.getLast? ≠ some '0') :
    IsTrimmedFraction places ('.' :: ds)

/-- A minus sign or none, digits without a superfluous zero in front, and a fraction without one at
the end. Zero has no minus sign. -/
inductive IsCanonical (places : ℕ) : List Char → Prop where
  | unsigned {whole fraction : List Char} (isWhole : IsWhole whole)
    (isTrimmed : IsTrimmedFraction places fraction) :
    IsCanonical places (whole ++ fraction)
  | negative {whole fraction : List Char} (isWhole : IsWhole whole)
    (isTrimmed : IsTrimmedFraction places fraction)
    (ne_zero : whole ++ fraction ≠ ['0']) : IsCanonical places ('-' :: (whole ++ fraction))

theorem isTrimmedFraction_fractionText (places units : ℕ) :
    IsTrimmedFraction places (fractionText places units) := by
  unfold fractionText
  split
  · exact .none
  · rename_i ds hne
    have hlength : (dropTrailingZeros (lastDigits places units)).length ≤ places := by
      obtain ⟨zeros, hzeros⟩ := exists_dropTrailingZeros_append (lastDigits places units)
      have hsame := congrArg List.length hzeros
      rw [List.length_append, length_lastDigits] at hsame
      omega
    refine .some ⟨hne, fun c hc => isDigit_of_mem_lastDigits (mem_of_mem_dropTrailingZeros hc)⟩
      hlength fun hlast => ?_
    rw [dropTrailingZeros, List.getLast?_reverse] at hlast
    have hdropped := List.head?_dropWhile_not (· == '0') (lastDigits places units).reverse
    rw [hlast] at hdropped
    exact absurd hdropped (by decide)

/-- No other decimal than the one of zero writes zero. -/
theorem ne_zero_text {places units : ℕ} (h : units ≠ 0) :
    digits (units / Nat.pow 10 places) ++ fractionText places units ≠ ['0'] := by
  intro heq
  obtain ⟨ds, e, hread, hvalue⟩ := exists_unsigned?_canonical places units
  rw [heq, show unsigned? ['0'] = some (0, 0) from rfl] at hread
  obtain ⟨rfl, rfl⟩ := Prod.mk.inj (Option.some.inj hread)
  rw [Nat.cast_zero, zero_mul, eq_comm, div_eq_zero_iff] at hvalue
  rcases hvalue with hunits | hpow
  · exact h (by exact_mod_cast hunits)
  · exact absurd hpow (by positivity)

theorem isCanonical_canonicalDecimal (negative : Bool) (places units : ℕ) :
    IsCanonical places (canonicalDecimal negative places units) := by
  have isWhole := isWhole_digits (units / Nat.pow 10 places)
  have isTrimmed := isTrimmedFraction_fractionText places units
  unfold canonicalDecimal
  split
  · rename_i hsign
    obtain ⟨-, hunits⟩ := Bool.and_eq_true_iff.1 hsign
    exact .negative isWhole isTrimmed (ne_zero_text (bne_iff_ne.1 hunits))
  · exact .unsigned isWhole isTrimmed

/-- The canonical decimal of a number of units of the last of some places. -/
def unitsText (places : ℕ) (units : ℤ) : List Char :=
  canonicalDecimal (decide (units < 0)) places units.natAbs

theorem canonicalDecimal_eq_unitsText (negative : Bool) (places units : ℕ) :
    canonicalDecimal negative places units = unitsText places (signedUnits negative units) := by
  rcases Nat.eq_zero_or_pos units with rfl | hpos
  · cases negative <;> rfl
  · cases negative with
    | false =>
      have hsign : ¬((units : ℤ) < 0) := by omega
      simp [unitsText, signedUnits, hsign]
    | true => simp [unitsText, signedUnits, hpos]

theorem withSign_natAbs (k : ℤ) : withSign (decide (k < 0)) k.natAbs = k := by
  rw [Nat.cast_natAbs]
  rcases lt_or_ge k 0 with hneg | hpos
  · rw [abs_of_neg hneg, decide_eq_true hneg, Int.cast_neg]
    exact neg_neg (k : ℚ)
  · rw [abs_of_nonneg hpos, decide_eq_false (not_lt.2 hpos)]
    rfl

/-- A canonical decimal denotes its units, with its sign. -/
theorem written?_canonicalDecimal (negative : Bool) (places units : ℕ) :
    written? (canonicalDecimal negative places units) =
      some (withSign negative (units / 10 ^ places)) := by
  obtain ⟨ds, e, hread, hvalue⟩ := exists_unsigned?_canonical places units
  have hshape :=
    isUnsigned_append_fractionText (isDigits_digits (units / Nat.pow 10 places)) places units
  rw [canonicalDecimal, List.append_assoc, written?_of_isUnsigned _ hshape hread, hvalue]
  rcases Nat.eq_zero_or_pos units with rfl | hpos
  · rw [Nat.cast_zero, zero_div, withSign_zero, withSign_zero]
  · rw [bne_iff_ne.2 hpos.ne', Bool.and_true]

theorem written?_unitsText (places : ℕ) (units : ℤ) :
    written? (unitsText places units) = some (units / 10 ^ places : ℚ) := by
  rw [unitsText, written?_canonicalDecimal, div_eq_mul_inv, ← withSign_mul, withSign_natAbs,
    div_eq_mul_inv]

/-- What is written for a finite double is the canonical decimal of the nearest units. -/
theorem exists_trimmedDecimal_eq (places : ℕ) {x : Float} (h : x.isFinite = true) :
    ∃ units : ℤ, IsNearestEven (toRat x * 10 ^ places) units ∧
      trimmedDecimal places x = String.ofList (unitsText places units) := by
  obtain ⟨negative, mantissa, exponent, hx⟩ := Binary64.isFinite_iff.1 h
  have hnonneg : 0 ≤ magnitude mantissa exponent * 10 ^ places :=
    mul_nonneg (Binary64.magnitude_nonneg mantissa exponent) (by positivity)
  refine ⟨signedUnits negative (nearestNat .toEven (magnitude mantissa exponent * 10 ^ places)), ?_,
    ?_⟩
  · rw [toRat_of_ofFloat hx, withSign_mul]
    exact isNearestEven_signedUnits negative hnonneg
  · simp only [trimmedDecimal, hx, nearestUnits_eq, canonicalDecimal_eq_unitsText]

/-- Different units have different texts. -/
theorem unitsText_inj {places : ℕ} {units other : ℤ}
    (h : unitsText places units = unitsText places other) :
    units = other := by
  have hwritten := congrArg written? h
  rw [written?_unitsText, written?_unitsText, Option.some.injEq, div_left_inj' (by positivity)]
    at hwritten
  exact_mod_cast hwritten

end Turnery.Number

namespace Turnery.Gcode

open Number

/-- The word of a finite double denotes the nearest multiple of the fourth decimal, of two equally
near ones the even one, and is the canonical decimal of it. Other doubles have the same word exactly
if they have the same nearest multiple. -/
theorem number_canonical {x : Float} (h : x.isFinite = true) :
    ∃ units : ℤ, IsNearestEven (toRat x * 10 ^ 4) units ∧
      written? (number x).toList = some (units / 10 ^ 4 : ℚ) ∧
        |(units / 10 ^ 4 : ℚ) - toRat x| ≤ 1 / 20000 ∧
      IsCanonical 4 (number x).toList ∧ (units = 0 → number x = "0") ∧
      ∀ y : Float, y.isFinite = true →
        (number y = number x ↔ IsNearestEven (toRat y * 10 ^ 4) units) := by
  obtain ⟨units, hnearest, htext⟩ := exists_trimmedDecimal_eq 4 h
  have hword : (number x).toList = unitsText 4 units := by
    rw [number, htext, String.toList_ofList]
  refine ⟨units, hnearest, ?_, ?_, ?_, ?_, ?_⟩
  · rw [hword, written?_unitsText]
  · have hhalf := hnearest.abs_sub_le_half
    rw [abs_sub_comm, abs_le] at hhalf
    rw [abs_le, le_sub_iff_add_le, sub_le_iff_le_add, le_div_iff₀ (by norm_num),
      div_le_iff₀ (by norm_num)]
    constructor <;> linarith
  · rw [hword]
    exact isCanonical_canonicalDecimal _ _ _
  · rintro rfl
    rw [number, htext]
    rfl
  · intro y hy
    obtain ⟨other, hother, hsame⟩ := exists_trimmedDecimal_eq 4 hy
    rw [number, number, htext, hsame, String.ofList_inj]
    constructor
    · intro heq
      rwa [← unitsText_inj heq]
    · intro hunits
      rw [hother.unique hunits]

/-- A number halfway between two multiples goes to the even one. -/
theorem number_canonical_tie :
    (-0.03125 : Float).isFinite = true ∧ number (-0.03125) = "-0.0312" ∧
    ∃ units : ℤ, IsNearestEven (toRat (-0.03125) * 10 ^ 4) units ∧
      written? (number (-0.03125)).toList = some (units / 10 ^ 4 : ℚ) ∧
      |(units / 10 ^ 4 : ℚ) - toRat (-0.03125)| ≤ 1 / 20000 ∧
      IsCanonical 4 (number (-0.03125)).toList ∧ (units = 0 → number (-0.03125) = "0") ∧
      ∀ y : Float, y.isFinite = true →
        (number y = number (-0.03125) ↔ IsNearestEven (toRat y * 10 ^ 4) units) :=
  have h : (-0.03125 : Float).isFinite = true := by decide +kernel
  ⟨h, by decide +kernel, number_canonical h⟩

end Turnery.Gcode
