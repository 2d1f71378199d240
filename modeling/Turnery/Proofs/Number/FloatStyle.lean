import Turnery.Number.FloatStyle
import Turnery.Proofs.Number.Shortest

/-!
# The texts of doubles

Whatever the style, the shortest digits of a double are laid out so that they keep their value.
`exists_tomlFloat_text` and `exists_jsonFloat_text` say which shapes the texts of the two settings
formats have; that of TOML is a point between digits which denote the double.
-/

namespace Turnery.Number

/-- Digits without a superfluous zero in front. -/
structure IsWhole (ds : List Char) : Prop extends IsDigits ds where
  canonical : ∀ {rest : List Char}, ds = '0' :: rest → rest = []

theorem isWhole_zero : IsWhole ['0'] where
  ne_nil := List.cons_ne_nil _ _
  isDigit c hc := by
    obtain rfl := List.mem_singleton.1 hc
    rfl
  canonical h := (List.cons.inj h).2.symm

theorem digits_of_lt {n : ℕ} (h : n < 10) : digits n = [n.digitChar] :=
  Nat.toDigits_of_lt_base h

theorem digits_of_le {n : ℕ} (h : 10 ≤ n) : digits n = digits (n / 10) ++ [(n % 10).digitChar] :=
  Nat.toDigits_of_base_le (by decide) h

/-- The first digit of a number is zero only for zero. -/
theorem eq_zero_of_digits_eq_cons {n : ℕ} {rest : List Char} (h : digits n = '0' :: rest) :
    n = 0 := by
  induction n using Nat.strongRecOn generalizing rest with
  | ind n ih =>
    rcases Nat.lt_or_ge n 10 with hlt | hge
    · have hdigit : ∀ k < 10, Nat.digitChar k = '0' → k = 0 := by decide
      rw [digits_of_lt hlt, List.cons.injEq] at h
      exact hdigit n hlt h.1
    · rw [digits_of_le hge] at h
      cases hfront : digits (n / 10) with
      | nil => exact absurd hfront (isDigits_digits _).ne_nil
      | cons d front =>
        rw [hfront, List.cons_append, List.cons.injEq] at h
        rw [h.1] at hfront
        have := ih (n / 10) (by omega) hfront
        omega

theorem isWhole_digits (n : ℕ) : IsWhole (digits n) where
  toIsDigits := isDigits_digits n
  canonical h := by
    obtain rfl := eq_zero_of_digits_eq_cons h
    exact (List.cons.inj h).2.symm

theorem IsDigits.append {ds es : List Char} (h : IsDigits ds) (hes : ∀ c ∈ es, c.isDigit = true) :
    IsDigits (ds ++ es) where
  ne_nil := List.append_ne_nil_of_left_ne_nil h.ne_nil es
  isDigit c hc := (List.mem_append.1 hc).elim (h.isDigit c) (hes c)

theorem natOfDigits_append_zeros (ds : List Char) (zeros : ℕ) :
    natOfDigits (ds ++ List.replicate zeros '0') = 10 ^ zeros * natOfDigits ds := by
  rw [natOfDigits_append, appendDigits_eq, Nat.ofDigitChars_replicate_zero]

theorem natOfDigits_zeros_append (zeros : ℕ) (ds : List Char) :
    natOfDigits (List.replicate zeros '0' ++ ds) = natOfDigits ds := by
  induction zeros with
  | zero => rfl
  | succ zeros ih =>
    rw [List.replicate_succ, List.cons_append, natOfDigits, appendDigits_cons]
    exact ih

/-- A point between digits, and the number that the digits write. -/
structure IsPointed (text : List Char) (value : ℚ) (whole fraction : List Char) : Prop where
  text_eq : text = whole ++ '.' :: fraction
  isWhole : IsWhole whole
  isDigits : IsDigits fraction
  value_eq : (natOfDigits (whole ++ fraction) : ℚ) * 10 ^ (-(fraction.length : ℤ)) = value

/-- Zeros fill the places up to the point. -/
theorem isPointed_trailingZeros {n k : ℕ} (h : n = 0 → k = 0) :
    IsPointed (digits n ++ List.replicate k '0' ++ ['.', '0']) (n * 10 ^ (k : ℤ))
      (digits n ++ List.replicate k '0') ['0'] where
  text_eq := rfl
  isWhole := by
    refine ⟨(isDigits_digits n).append fun c hc => ?_, fun {rest} hrest => ?_⟩
    · rw [List.eq_of_mem_replicate hc]
      rfl
    · cases hds : digits n with
      | nil => exact absurd hds (isDigits_digits n).ne_nil
      | cons c front =>
        rw [hds, List.cons_append, List.cons.injEq] at hrest
        obtain ⟨rfl, rfl⟩ := hrest
        rw [h (eq_zero_of_digits_eq_cons hds), (isWhole_digits n).canonical hds]
        rfl
  isDigits := isWhole_zero.toIsDigits
  value_eq := by
    have hall : natOfDigits (digits n ++ List.replicate k '0' ++ ['0']) = 10 ^ (k + 1) * n := by
      rw [List.append_assoc, show ['0'] = List.replicate 1 '0' from rfl,
        List.replicate_append_replicate, natOfDigits_append_zeros, natOfDigits_digits]
    rw [hall, zpow_natCast, pow_succ]
    push_cast
    rw [List.length_singleton, Nat.cast_one, zpow_neg_one]
    field_simp

/-- The point stands among the digits. -/
theorem isPointed_within {n place : ℕ} (hfront : 0 < place) (hback : place < (digits n).length) :
    IsPointed ((digits n).take place ++ '.' :: (digits n).drop place)
      (n * 10 ^ (-((digits n).length - place : ℕ) : ℤ))
      ((digits n).take place) ((digits n).drop place) where
  text_eq := rfl
  isWhole := by
    refine ⟨⟨?_, fun c hc => (isDigits_digits n).isDigit c (List.mem_of_mem_take hc)⟩,
      fun {rest} hrest => ?_⟩
    · intro hnil
      have := congrArg List.length hnil
      rw [List.length_take, List.length_nil] at this
      omega
    · have hall := List.take_append_drop place (digits n)
      rw [hrest, List.cons_append] at hall
      exact (List.append_eq_nil_iff.1 ((isWhole_digits n).canonical hall.symm)).1
  isDigits := by
    refine ⟨?_, fun c hc => (isDigits_digits n).isDigit c (List.mem_of_mem_drop hc)⟩
    intro hnil
    have := congrArg List.length hnil
    rw [List.length_drop, List.length_nil] at this
    omega
  value_eq := by rw [List.take_append_drop, natOfDigits_digits, List.length_drop]

/-- A zero stands before the point and zeros between it and the digits. -/
theorem isPointed_leadingZeros (n k : ℕ) :
    IsPointed ('0' :: '.' :: List.replicate k '0' ++ digits n)
      (n * 10 ^ (-(k + (digits n).length : ℕ) : ℤ)) ['0']
      (List.replicate k '0' ++ digits n) where
  text_eq := rfl
  isWhole := isWhole_zero
  isDigits := by
    refine ⟨List.append_ne_nil_of_right_ne_nil _ (isDigits_digits n).ne_nil, fun c hc => ?_⟩
    rcases List.mem_append.1 hc with hc | hc
    · rw [List.eq_of_mem_replicate hc]
      rfl
    · exact (isDigits_digits n).isDigit c hc
  value_eq := by
    rw [← List.append_assoc, show ['0'] = List.replicate 1 '0' from rfl,
      List.replicate_append_replicate, natOfDigits_zeros_append, natOfDigits_digits,
      List.length_append, List.length_replicate]

namespace FloatStyle

theorem exists_positionalText (d : Decimal) (h : d.digits = 0 → d.exponent ≤ 0) :
    ∃ whole fraction, IsPointed (positionalText true (digits d.digits) d.exponent) d.value whole
      fraction := by
  unfold positionalText Decimal.value
  dsimp only
  split
  · rename_i hsign
    obtain ⟨k, hk⟩ := Int.eq_ofNat_of_zero_le hsign
    rw [hk]
    exact ⟨_, _, isPointed_trailingZeros fun hzero => by have := h hzero; omega⟩
  split
  · rename_i hpoint
    obtain ⟨place, hplace⟩ := Int.eq_ofNat_of_zero_le (Int.le_of_lt hpoint)
    have hexponent : d.exponent = -((digits d.digits).length - place : ℕ) := by omega
    have hpointed := @isPointed_within d.digits place (by omega) (by omega)
    rw [← hexponent] at hpointed
    rw [hplace]
    exact ⟨_, _, hpointed⟩
  · rename_i hpoint
    obtain ⟨k, hk⟩ := Int.eq_ofNat_of_zero_le (Int.neg_nonneg_of_nonpos (Int.not_lt.1 hpoint))
    have hexponent : d.exponent = -(k + (digits d.digits).length : ℕ) := by omega
    have hpointed := isPointed_leadingZeros d.digits k
    rw [← hexponent] at hpointed
    rw [hk]
    exact ⟨_, _, hpointed⟩

/-- The shortest decimal of a double is zero only as plain zero. -/
theorem exponent_shortest_le {tie : Tie} {mantissa : ℕ} {exponent : ℤ}
    (hstored : (mantissa = 0 ∧ exponent = 0) ∨ IsStored mantissa exponent)
    (hzero : (shortest tie mantissa exponent).digits = 0) :
    (shortest tie mantissa exponent).exponent ≤ 0 := by
  have hrounded := rounded_shortest tie hstored
  rw [Decimal.value, hzero, Nat.cast_zero, zero_mul, rounded_zero] at hrounded
  rcases hstored with ⟨rfl, rfl⟩ | hstored
  · exact le_of_eq rfl
  · exact absurd hrounded hstored.magnitude_pos.ne

/-- The text of a finite double in TOML is a sign and digits with a point, and these denote the
double. -/
theorem exists_tomlFloat_text {x : Float} {negative : Bool} {mantissa : ℕ} {exponent : ℤ}
    (hx : Binary64.ofFloat x = .finite negative mantissa exponent) :
    ∃ body value whole fraction, (tomlFloat.text x).toList =
      (if negative then ['-'] else []) ++ body ∧
      IsPointed body value whole fraction ∧
      Numeral.toFloat ⟨negative, natOfDigits (whole ++ fraction), -(fraction.length : ℤ)⟩ = x := by
  have hstored := Binary64.isStored_of_ofFloat hx
  obtain ⟨whole, fraction, hshape⟩ :=
    exists_positionalText (shortest .away mantissa exponent) (exponent_shortest_le hstored)
  refine ⟨_, _, whole, fraction, ?_, hshape, toFloat_of_value_eq hx hshape.value_eq⟩
  simp only [text, hx, signed]
  cases negative with
  | false => exact String.toList_ofList
  | true => simp only [if_true, String.toList_append, String.toList_ofList]; rfl

end FloatStyle

/-- A number in the notation of JSON, without its sign: digits, a point with digits or nothing, and
an exponent or nothing. -/
structure IsNumberText (text whole fraction exponent : List Char) : Prop where
  text_eq : text = whole ++ fraction ++ exponent
  isWhole : IsWhole whole
  fraction_eq : fraction = [] ∨ ∃ es, IsDigits es ∧ fraction = '.' :: es
  exponent_eq : exponent = [] ∨ ∃ sign es, (sign = '-' ∨ sign = '+') ∧ IsDigits es ∧
    exponent = 'e' :: sign :: es

theorem isNumberText_digits (n : ℕ) : IsNumberText (digits n) (digits n) [] [] where
  text_eq := by rw [List.append_nil, List.append_nil]
  isWhole := isWhole_digits n
  fraction_eq := .inl rfl
  exponent_eq := .inl rfl

theorem IsPointed.isNumberText {text whole fraction : List Char} {value : ℚ}
    (h : IsPointed text value whole fraction) : IsNumberText text whole ('.' :: fraction) [] where
  text_eq := by rw [h.text_eq, List.append_nil]
  isWhole := h.isWhole
  fraction_eq := .inr ⟨fraction, h.isDigits, rfl⟩
  exponent_eq := .inl rfl

namespace FloatStyle

theorem exists_scientificText {ds : List Char} (h : IsDigits ds) (e : ℤ) :
    ∃ whole fraction exponent, IsNumberText (scientificText true ds e) whole fraction exponent := by
  cases ds with
  | nil => exact absurd rfl h.ne_nil
  | cons d rest =>
    have hd : d.isDigit = true := h.isDigit d List.mem_cons_self
    have hrest : ∀ c ∈ rest, c.isDigit = true := fun c hc => h.isDigit c (List.mem_cons_of_mem d hc)
    refine ⟨[d], if (d :: rest).length > 1 then '.' :: rest else [], _, rfl, ?_, ?_, ?_⟩
    · refine ⟨⟨List.cons_ne_nil d [], fun c hc => ?_⟩, fun heq => (List.cons.inj heq).2.symm⟩
      obtain rfl := List.mem_singleton.1 hc
      exact hd
    · split
      · rename_i hlong
        refine .inr ⟨rest, ⟨?_, hrest⟩, rfl⟩
        rintro rfl
        exact absurd hlong (Nat.lt_irrefl 1)
      · exact .inl rfl
    · refine .inr ?_
      unfold integerText
      split
      · exact ⟨'-', _, .inl rfl, isDigits_digits _, rfl⟩
      · exact ⟨'+', _, .inr rfl, isDigits_digits _, rfl⟩

theorem jsonFloat_decimalText (d : Decimal) :
    jsonFloat.decimalText d = positionalText true (digits d.digits) d.exponent ∨
      jsonFloat.decimalText d = scientificText true (digits d.digits) d.exponent :=
  ite_eq_or_eq _ _ _

/-- The text of a finite double in JSON is a sign and a number. -/
theorem exists_jsonFloat_text {x : Float} {negative : Bool} {mantissa : ℕ} {exponent : ℤ}
    (hx : Binary64.ofFloat x = .finite negative mantissa exponent) :
    ∃ body whole fraction exponent, (jsonFloat.text x).toList =
      (if negative then ['-'] else []) ++ body ∧
      IsNumberText body whole fraction exponent := by
  have hstored := Binary64.isStored_of_ofFloat hx
  have hbody : ∃ whole fraction exponent',
      IsNumberText (jsonFloat.decimalText (shortest .toEven mantissa exponent))
      whole fraction exponent' := by
    rcases jsonFloat_decimalText (shortest .toEven mantissa exponent) with hlayout | hlayout
    · obtain ⟨whole, fraction, hshape⟩ :=
        exists_positionalText (shortest .toEven mantissa exponent) (exponent_shortest_le hstored)
      rw [hlayout]
      exact ⟨_, _, _, hshape.isNumberText⟩
    · rw [hlayout]
      exact exists_scientificText (isDigits_digits _) _
  obtain ⟨whole, fraction, exponent', hshape⟩ := hbody
  refine ⟨_, whole, fraction, exponent', ?_, hshape⟩
  simp only [text, hx, signed]
  cases negative with
  | false => exact String.toList_ofList
  | true => simp only [if_true, String.toList_append, String.toList_ofList]; rfl

end FloatStyle

end Turnery.Number
