import Mathlib.Data.List.TakeWhile
import Turnery.Proofs.Number.DecimalShape

/-!
# Decimals at the front of a text

A decimal in running text is an optional sign and digits with at most one point before, among or
behind them. In ASCII text the reader takes the longest one (`takeDecimal?_eq_some_iff`), and every
one denotes a double (`exists_float?_of_isSigned`).
-/

namespace Turnery.Text

open Number (IsDigits float?)

/-- A sign or nothing. -/
inductive IsSign : List Char → Prop where
  | none : IsSign []
  | plus : IsSign ['+']
  | minus : IsSign ['-']

/-- Digits with at most one point before, among or behind them. -/
inductive IsMagnitude : List Char → Prop where
  | whole {ds : List Char} (digits : IsDigits ds) : IsMagnitude ds
  | pointed {ds es : List Char} (before : ∀ c ∈ ds, c.isDigit = true)
    (behind : ∀ c ∈ es, c.isDigit = true)
    (some : ds ≠ [] ∨ es ≠ []) : IsMagnitude (ds ++ '.' :: es)

/-- A decimal with or without a sign. -/
inductive IsSigned : List Char → Prop where
  | mk {sign body : List Char} (front : IsSign sign) (magnitude : IsMagnitude body) :
    IsSigned (sign ++ body)

/-- The decimal cannot be continued by the text behind it. -/
def EndsDecimal (word rest : List Char) : Prop :=
  ∀ c ∈ rest.head?, isDecimalDigit c = false ∧ (c = '.' → '.' ∈ word)

/-- The word is the longest decimal at the front of the text. -/
structure IsLongestDecimal (word text : List Char) : Prop where
  isPrefix : word <+: text
  isSigned : IsSigned word
  longest : ∀ other, other <+: text → IsSigned other → other.length ≤ word.length

/-- Every character is an ASCII character. -/
def IsAscii (text : List Char) : Prop :=
  ∀ c ∈ text, c.toNat < 128

instance (text : List Char) : Decidable (IsAscii text) :=
  List.decidableBAll (fun c : Char => c.toNat < 128) text

/-- The decimal digits among the ASCII characters are the ten digits. -/
theorem isDecimalDigit_eq_isDigit {c : Char} (h : c.toNat < 128) :
    isDecimalDigit c = c.isDigit := by
  have hall : ∀ n < 128, isDecimalDigit (Char.ofNat n) = (Char.ofNat n).isDigit := by decide +kernel
  have hc := hall c.toNat h
  rwa [Char.ofNat_toNat] at hc

theorem IsMagnitude.digit_or_point {body : List Char} (h : IsMagnitude body) {c : Char}
    (hc : c ∈ body) :
    c.isDigit = true ∨ c = '.' := by
  cases h with
  | whole digits => exact .inl (digits.isDigit c hc)
  | pointed before behind =>
    rcases List.mem_append.1 hc with hc | hc
    · exact .inl (before c hc)
    · rcases List.mem_cons.1 hc with rfl | hc
      · exact .inr rfl
      · exact .inl (behind c hc)

/-- A decimal without sign starts with a digit or a point. -/
theorem IsMagnitude.exists_cons {body : List Char} (h : IsMagnitude body) :
    ∃ c rest, body = c :: rest ∧ (c.isDigit = true ∨ c = '.') := by
  cases hbody : body with
  | nil =>
    subst hbody
    generalize hnil : ([] : List Char) = text at h
    cases h with
    | whole digits => exact absurd hnil.symm digits.ne_nil
    | pointed before behind some => exact absurd hnil (by simp)
  | cons c rest => exact ⟨c, rest, rfl, h.digit_or_point (hbody ▸ List.mem_cons_self)⟩

theorem count_point_of_isDigit {ds : List Char} (h : ∀ c ∈ ds, c.isDigit = true) :
    ds.count '.' = 0 :=
  List.count_eq_zero_of_not_mem fun hmem => absurd (h _ hmem) (by decide)

theorem IsMagnitude.count_point_le {body : List Char} (h : IsMagnitude body) :
    body.count '.' ≤ 1 := by
  cases h with
  | whole digits => simp [count_point_of_isDigit digits.isDigit]
  | pointed before behind some =>
    simp [count_point_of_isDigit before, count_point_of_isDigit behind]

theorem IsMagnitude.concat_digit {body : List Char} (h : IsMagnitude body) {c : Char}
    (hc : c.isDigit = true) :
    IsMagnitude (body ++ [c]) := by
  have hmore : ∀ {ds : List Char}, (∀ d ∈ ds, d.isDigit = true) → ∀ d ∈ ds ++ [c],
      d.isDigit = true := by
    intro ds hds d hd
    rcases List.mem_append.1 hd with hd | hd
    · exact hds d hd
    · exact List.mem_singleton.1 hd ▸ hc
  cases h with
  | whole digits => exact .whole ⟨by simp, hmore digits.isDigit⟩
  | pointed before behind some =>
    rw [List.append_assoc, List.cons_append]
    exact .pointed before (hmore behind) (.inr (by simp))

theorem IsMagnitude.concat_point {body : List Char} (h : IsMagnitude body) (hpoint : '.' ∉ body) :
    IsMagnitude (body ++ ['.']) := by
  cases h with
  | whole digits => exact .pointed digits.isDigit (List.forall_mem_nil _) (.inl digits.ne_nil)
  | pointed before behind some => exact absurd (by simp) hpoint

/-- A decimal starts with a digit, a point or a sign. -/
theorem IsSigned.exists_cons {word : List Char} (h : IsSigned word) :
    ∃ c tail, word = c :: tail ∧ (c.isDigit = true ∨ c = '.' ∨ c = '+' ∨ c = '-') := by
  obtain @⟨sign, body, front, magnitude⟩ := h
  cases front with
  | none =>
    obtain ⟨c, tail, rfl, hc⟩ := magnitude.exists_cons
    exact ⟨c, tail, rfl, hc.imp_right .inl⟩
  | plus => exact ⟨'+', body, rfl, .inr (.inr (.inl rfl))⟩
  | minus => exact ⟨'-', body, rfl, .inr (.inr (.inr rfl))⟩

theorem IsSigned.ne_nil {word : List Char} (h : IsSigned word) : word ≠ [] := by
  obtain ⟨c, tail, rfl, -⟩ := h.exists_cons
  exact List.cons_ne_nil c tail

/-- Only the first character can be a sign. -/
theorem IsSigned.digit_or_point {first : Char} {text : List Char} (h : IsSigned (first :: text))
    {c : Char} (hc : c ∈ text) : c.isDigit = true ∨ c = '.' := by
  generalize hword : first :: text = word at h
  obtain @⟨sign, body, front, magnitude⟩ := h
  apply magnitude.digit_or_point
  cases front with
  | none =>
    rw [List.nil_append] at hword
    exact hword ▸ List.mem_cons_of_mem first hc
  | plus | minus =>
    obtain ⟨-, rfl⟩ := List.cons.inj hword
    exact hc

theorem IsSigned.count_point_le {word : List Char} (h : IsSigned word) : word.count '.' ≤ 1 := by
  obtain @⟨sign, body, front, magnitude⟩ := h
  have hsign : sign.count '.' = 0 := by cases front <;> rfl
  rw [List.count_append, hsign, Nat.zero_add]
  exact magnitude.count_point_le

theorem IsSigned.concat_digit {word : List Char} (h : IsSigned word) {c : Char}
    (hc : c.isDigit = true) :
    IsSigned (word ++ [c]) := by
  obtain @⟨sign, body, front, magnitude⟩ := h
  rw [List.append_assoc]
  exact ⟨front, magnitude.concat_digit hc⟩

theorem IsSigned.concat_point {word : List Char} (h : IsSigned word) (hpoint : '.' ∉ word) :
    IsSigned (word ++ ['.']) := by
  obtain @⟨sign, body, front, magnitude⟩ := h
  rw [List.append_assoc]
  exact ⟨front, magnitude.concat_point fun hmem => hpoint (List.mem_append_right sign hmem)⟩

/-- A decimal that cannot be continued is the longest: one more character would be a digit or a
second point. -/
theorem isLongestDecimal_append {word rest : List Char} (h : IsSigned word)
    (hends : EndsDecimal word rest) :
    IsLongestDecimal word (word ++ rest) := by
  refine ⟨List.prefix_append word rest, h, ?_⟩
  intro other hother hsigned
  apply Nat.le_of_not_lt
  intro hlonger
  obtain ⟨more, rfl⟩ : word <+: other :=
    List.prefix_of_prefix_length_le (List.prefix_append word rest) hother (Nat.le_of_lt hlonger)
  obtain ⟨after, hafter⟩ := hother
  rw [List.append_assoc, List.append_cancel_left_eq] at hafter
  cases more with
  | nil => simp at hlonger
  | cons c more =>
    obtain ⟨hdigit, hpoint⟩ := hends c (by rw [← hafter]; rfl)
    obtain ⟨first, tail, rfl⟩ := List.exists_cons_of_ne_nil h.ne_nil
    rcases hsigned.digit_or_point (c := c) (by simp) with hc | rfl
    · rw [isDecimalDigit_of_isDigit hc] at hdigit
      cases hdigit
    · have hone := List.count_pos_iff.2 (hpoint rfl)
      have hcount := hsigned.count_point_le
      rw [List.count_append, List.count_cons_self] at hcount
      omega

/-- In ASCII text the longest decimal cannot be continued. -/
theorem IsLongestDecimal.exists_eq_append {word text : List Char} (h : IsLongestDecimal word text)
    (ascii : IsAscii text) : ∃ rest, text = word ++ rest ∧ EndsDecimal word rest := by
  obtain ⟨rest, rfl⟩ := h.isPrefix
  refine ⟨rest, rfl, ?_⟩
  intro c hc
  obtain ⟨rest, rfl⟩ : ∃ tail, rest = c :: tail := List.head?_eq_some_iff.1 hc
  have hprefix : word ++ [c] <+: word ++ c :: rest := ⟨rest, by simp⟩
  have hstop : ¬IsSigned (word ++ [c]) := by
    intro hsigned
    have hle := h.longest _ hprefix hsigned
    rw [List.length_append, List.length_singleton] at hle
    omega
  constructor
  · rw [isDecimalDigit_eq_isDigit (ascii c (by simp)), Bool.eq_false_iff]
    intro hdigit
    exact hstop (h.isSigned.concat_digit hdigit)
  · rintro rfl
    apply Decidable.byContradiction
    intro hpoint
    exact hstop (h.isSigned.concat_point hpoint)

/-- A decimal without sign is split off as a whole. -/
theorem takeUnsigned?_append_of_isMagnitude {body rest : List Char} (h : IsMagnitude body)
    (hends : EndsDecimal body rest) : takeUnsigned? (body ++ rest) = some (body, rest) := by
  cases h with
  | whole digits =>
    rw [takeUnsigned?, Number.takeDigits_append_of_head digits.isDigit fun c hc => (hends c hc).1]
    dsimp only
    split
    · have hmem := (hends '.' rfl).2 rfl
      exact absurd (digits.isDigit _ hmem) (by decide)
    · simp [digits.ne_nil]
  | @pointed ds es before behind some =>
    have hwhole : takeDigits (ds ++ '.' :: (es ++ rest)) = (ds, '.' :: (es ++ rest)) :=
      Number.takeDigits_append_of_head before fun c hc => by
        obtain rfl := Option.some.inj hc
        decide
    have hfraction : takeDigits (es ++ rest) = (es, rest) :=
      Number.takeDigits_append_of_head behind fun c hc => (hends c hc).1
    have hempty : (ds.isEmpty && es.isEmpty) = false := by simpa [imp_iff_not_or] using some
    rw [List.append_assoc, List.cons_append, takeUnsigned?, hwhole]
    simp only [hfraction, hempty, Bool.false_eq_true, if_false]

/-- The sign is split off first. -/
theorem takeDecimal?_sign_append {sign body : List Char} (front : IsSign sign)
    (magnitude : IsMagnitude body) (rest : List Char) : takeDecimal? (sign ++ (body ++ rest)) =
      (takeUnsigned? (body ++ rest)).map fun taken => (sign ++ taken.1, taken.2) := by
  obtain ⟨c, tail, rfl, hc⟩ := magnitude.exists_cons
  cases front with
  | none =>
    have hminus : c ≠ '-' := by rintro rfl; simp at hc
    have hplus : c ≠ '+' := by rintro rfl; simp at hc
    rw [List.nil_append, List.cons_append, takeDecimal?.eq_3]
    · simp
    · intro text heq
      exact hminus (List.cons.inj heq).1
    · intro text heq
      exact hplus (List.cons.inj heq).1
  | plus | minus => rfl

theorem takeDecimal?_append_of_isSigned {word rest : List Char} (h : IsSigned word)
    (hends : EndsDecimal word rest) :
    takeDecimal? (word ++ rest) = some (word, rest) := by
  obtain @⟨sign, body, front, magnitude⟩ := h
  have hbody : EndsDecimal body rest := by
    intro c hc
    obtain ⟨hdigit, hpoint⟩ := hends c hc
    refine ⟨hdigit, ?_⟩
    intro heq
    rcases List.mem_append.1 (hpoint heq) with hsign | hmem
    · cases front <;> simp at hsign
    · exact hmem
  rw [List.append_assoc, takeDecimal?_sign_append front magnitude,
    takeUnsigned?_append_of_isMagnitude magnitude hbody]
  rfl

theorem isDigit_of_mem_takeDigits {text : List Char} (ascii : IsAscii text) {c : Char}
    (hc : c ∈ (takeDigits text).1) :
    c.isDigit = true := by
  have hmem : c ∈ text := (List.takeWhile_prefix isDecimalDigit).mem hc
  rw [← isDecimalDigit_eq_isDigit (ascii c hmem)]
  exact List.mem_takeWhile_imp hc

theorem isDecimalDigit_head_takeDigits {text : List Char} {c : Char}
    (hc : c ∈ (takeDigits text).2.head?) :
    isDecimalDigit c = false := by
  have hhead := List.head?_dropWhile_not isDecimalDigit text
  rw [takeDigits] at hc
  rw [hc] at hhead
  simpa using hhead

theorem isAscii_of_suffix {text rest : List Char} (ascii : IsAscii text) (h : rest <:+ text) :
    IsAscii rest :=
  fun c hc => ascii c (h.mem hc)

/-- What is split off ASCII text is a decimal, and it cannot be continued. -/
theorem of_takeUnsigned? {text body rest : List Char} (ascii : IsAscii text)
    (h : takeUnsigned? text = some (body, rest)) : IsMagnitude body ∧ EndsDecimal body rest := by
  unfold takeUnsigned? at h
  dsimp only at h
  split at h
  · rename_i afterPoint hrest
    split at h
    · cases h
    · rename_i hsome
      obtain ⟨rfl, rfl⟩ := Prod.mk.inj (Option.some.inj h)
      have hsuffix : afterPoint <:+ text :=
        (List.suffix_cons '.' afterPoint).trans (hrest ▸ List.dropWhile_suffix isDecimalDigit)
      constructor
      · refine .pointed (fun c hc => isDigit_of_mem_takeDigits ascii hc)
          (fun c hc => isDigit_of_mem_takeDigits (isAscii_of_suffix ascii hsuffix) hc) ?_
        simpa [imp_iff_not_or] using hsome
      · intro c hc
        exact ⟨isDecimalDigit_head_takeDigits hc, fun _ => by simp⟩
  · rename_i hpoint
    split at h
    · cases h
    · rename_i hsome
      obtain ⟨rfl, rfl⟩ := Prod.mk.inj (Option.some.inj h)
      constructor
      · exact .whole ⟨by simpa using hsome, fun c hc => isDigit_of_mem_takeDigits ascii hc⟩
      · intro c hc
        refine ⟨isDecimalDigit_head_takeDigits hc, ?_⟩
        rintro rfl
        obtain ⟨afterPoint, hafter⟩ := List.head?_eq_some_iff.1 hc
        exact absurd hafter (hpoint afterPoint)

theorem of_takeDecimal? {text word rest : List Char} (ascii : IsAscii text)
    (h : takeDecimal? text = some (word, rest)) : IsSigned word ∧ EndsDecimal word rest := by
  have hsigned : ∀ {sign body tail : List Char}, IsSign sign → IsAscii tail →
      takeUnsigned? tail = some (body, rest) → IsSigned (sign ++ body) ∧
          EndsDecimal (sign ++ body) rest := by
    intro sign body tail front hascii htake
    obtain ⟨magnitude, hends⟩ := of_takeUnsigned? hascii htake
    refine ⟨⟨front, magnitude⟩, ?_⟩
    intro c hc
    obtain ⟨hdigit, hpoint⟩ := hends c hc
    exact ⟨hdigit, fun heq => List.mem_append_right sign (hpoint heq)⟩
  unfold takeDecimal? at h
  split at h
  · rename_i tail
    obtain ⟨⟨body, rest'⟩, htake, heq⟩ := Option.map_eq_some_iff.1 h
    obtain ⟨rfl, rfl⟩ := Prod.mk.inj heq
    exact hsigned .minus (isAscii_of_suffix ascii (List.suffix_cons '-' tail)) htake
  · rename_i tail
    obtain ⟨⟨body, rest'⟩, htake, heq⟩ := Option.map_eq_some_iff.1 h
    obtain ⟨rfl, rfl⟩ := Prod.mk.inj heq
    exact hsigned .plus (isAscii_of_suffix ascii (List.suffix_cons '+' tail)) htake
  · exact hsigned .none ascii h

/-- In ASCII text the reader takes the longest decimal. -/
theorem takeDecimal?_eq_some_iff {text word rest : List Char} (ascii : IsAscii text) :
    takeDecimal? text = some (word, rest) ↔ text = word ++ rest ∧ IsLongestDecimal word text := by
  constructor
  · intro h
    have happend := takeDecimal?_append h
    obtain ⟨hsigned, hends⟩ := of_takeDecimal? ascii h
    exact ⟨happend.symm, happend ▸ isLongestDecimal_append hsigned hends⟩
  · rintro ⟨heq, h⟩
    obtain ⟨rest', heq', hends⟩ := h.exists_eq_append ascii
    obtain rfl := List.append_cancel_left (heq.symm.trans heq')
    rw [heq]
    exact takeDecimal?_append_of_isSigned h.isSigned hends

theorem exists_unsigned?_of_isMagnitude {body : List Char} (h : IsMagnitude body) :
    ∃ ds e, Number.unsigned? body = some (ds, e) := by
  cases h with
  | whole digits => exact ⟨_, _, Number.unsigned?_of_isDigits digits⟩
  | @pointed ds es before behind some =>
    have hwhole : Number.splitDigits (ds ++ '.' :: es) = (ds, '.' :: es) :=
      Number.splitDigits_append_of_head before (by simp)
    have hfraction : Number.splitDigits (es ++ []) = (es, []) :=
      Number.splitDigits_append_of_head behind (by simp)
    rw [List.append_nil] at hfraction
    have hempty : (ds.isEmpty && es.isEmpty) = false := by simpa [imp_iff_not_or] using some
    simp [Number.unsigned?, hwhole, Number.splitFraction, hfraction, hempty, Number.exponent?]

/-- Every decimal denotes a double. -/
theorem exists_float?_of_isSigned {word : List Char} (h : IsSigned word) :
    ∃ x, float? word = some x := by
  obtain @⟨sign, body, front, magnitude⟩ := h
  obtain ⟨ds, e, hread⟩ := exists_unsigned?_of_isMagnitude magnitude
  have hsplit : ∃ negative, Number.splitSign (sign ++ body) = (negative, body) := by
    cases front with
    | none =>
      obtain ⟨c, tail, rfl, hc⟩ := magnitude.exists_cons
      refine ⟨false, Number.splitSign.eq_3 _ ?_ ?_⟩
      · rintro _ ⟨⟩
        simp at hc
      · rintro _ ⟨⟩
        simp at hc
    | plus => exact ⟨false, rfl⟩
    | minus => exact ⟨true, rfl⟩
  obtain ⟨negative, hsplit⟩ := hsplit
  exact ⟨_, by rw [float?, hsplit]; simp only [hread]; rfl⟩

end Turnery.Text
