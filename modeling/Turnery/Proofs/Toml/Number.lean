import Turnery.Datum.Toml
import Turnery.Proofs.Json.Number
import Turnery.Proofs.Number.FloatStyle
import Turnery.Proofs.Number.NonFinite

/-!
# TOML numbers read back

Integers of 64 bits and finite doubles are read from the texts that are written for them:
`numeric?_tomlInteger?` and `numeric?_tomlReal`. A moment in time is tried before a number and a
real before an integer, so it is shown for each text that no other reading takes it.
-/

namespace Turnery.Toml.Lexical

open Number (IsDigits IsWhole IsPointed natOfDigits splitSign Numeral digits isWhole_digits
  natOfDigits_digits)

/-- The text cannot go on a value that stands before it: what follows a value is a line end, a comma
or a bracket. -/
def EndsValue (rest : List Char) : Prop :=
  ∀ c ∈ rest.head?, c ∈ ['\n', ',', ']']

theorem EndsValue.imp {rest : List Char} (h : EndsValue rest) {p : Char → Prop} (hfeed : p '\n')
    (hcomma : p ',') (hbracket : p ']') : ∀ c ∈ rest.head?, p c := by
  intro c hc
  have := h c hc
  simp only [List.mem_cons, List.not_mem_nil, or_false] at this
  rcases this with rfl | rfl | rfl
  · exact hfeed
  · exact hcomma
  · exact hbracket

theorem ne_of_isDigit {c d : Char} (hc : c.isDigit = true) (hd : d.isDigit = false) : c ≠ d := by
  rintro rfl
  rw [hc] at hd
  cases hd

theorem moreDigits?_append {ds rest : List Char} (hds : ∀ c ∈ ds, c.isDigit = true)
    (hrest : ∀ c ∈ rest.head?, c.isDigit = false ∧ c ≠ '_') :
    moreDigits? Char.isDigit (ds ++ rest) = some (ds, rest) := by
  induction ds with
  | nil =>
    cases rest with
    | nil => rfl
    | cons c rest =>
      obtain ⟨hdigit, hgap⟩ := hrest c rfl
      simp [moreDigits?, hdigit, hgap]
  | cons d ds ih =>
    have hdigit := hds d List.mem_cons_self
    have hgap : d ≠ '_' := ne_of_isDigit hdigit rfl
    simp [moreDigits?, hdigit, hgap, ih fun c hc => hds c (List.mem_cons_of_mem d hc)]

theorem digits?_append {ds rest : List Char} (hds : IsDigits ds)
    (hrest : ∀ c ∈ rest.head?, c.isDigit = false ∧ c ≠ '_') :
    digits? Char.isDigit (ds ++ rest) = some (ds, rest) := by
  cases ds with
  | nil => exact absurd rfl hds.ne_nil
  | cons d ds =>
    have hmore := moreDigits?_append (fun c hc => hds.isDigit c (List.mem_cons_of_mem d hc)) hrest
    rw [List.cons_append, digits?, if_pos (hds.isDigit d List.mem_cons_self), hmore]
    rfl

theorem whole?_append {ds rest : List Char} (hds : IsWhole ds)
    (hrest : ∀ c ∈ rest.head?, c.isDigit = false ∧ c ≠ '_') :
    whole? (ds ++ rest) = some (ds, rest) := by
  by_cases hzero : ∃ tail, ds = '0' :: tail
  · obtain ⟨tail, rfl⟩ := hzero
    rw [hds.canonical rfl]
    rfl
  · have hread := digits?_append hds.toIsDigits hrest
    unfold whole?
    split
    · rename_i heq
      cases ds with
      | nil => exact absurd rfl hds.ne_nil
      | cons d ds =>
        rw [List.cons_append] at heq
        exact absurd ⟨ds, by rw [(List.cons.inj heq).1]⟩ hzero
    · exact hread

theorem expect?_eq_none {c : Char} {text : List Char} (h : ∀ d ∈ text.head?, d ≠ c) :
    expect? c text = none := by
  cases text with
  | nil => rfl
  | cons d text => simp [expect?, h d rfl]

/-- Digits are taken from the front as long as there are any. -/
theorem eq_drop_of_fixed? {count n : ℕ} {ds rest after : List Char}
    (hrest : ∀ c ∈ rest.head?, c.isDigit = false)
    (h : fixed? count (ds ++ rest) = some (n, after)) : after = ds.drop count ++ rest := by
  rw [fixed?] at h
  split at h
  · rename_i htaken
    obtain ⟨-, rfl⟩ := Prod.mk.inj (Option.some.inj h)
    simp only [Bool.and_eq_true, beq_iff_eq, List.all_eq_true] at htaken
    obtain ⟨hlength, hdigits⟩ := htaken
    have hcount : count ≤ ds.length := by
      by_contra hmore
      cases rest with
      | nil =>
        rw [List.append_nil, List.length_take] at hlength
        omega
      | cons c rest =>
        obtain ⟨more, hmore⟩ : ∃ more, count - ds.length = more + 1 :=
          ⟨count - ds.length - 1, by omega⟩
        have hc := hdigits c (by simp [List.take_append, hmore])
        rw [hrest c rfl] at hc
        cases hc
    exact List.drop_append_of_le_length hcount
  · cases h

/-- Behind digits no separator is found unless it comes right after them. -/
theorem fixed?_bind_expect? {separator : Char} (hseparator : separator.isDigit = false) (count : ℕ)
    {ds rest : List Char} (hds : ∀ c ∈ ds, c.isDigit = true)
    (hrest : ∀ c ∈ rest.head?, c.isDigit = false ∧ c ≠ separator) {n : ℕ} {after : List Char}
    (h : fixed? count (ds ++ rest) = some (n, after)) : expect? separator after = none := by
  rw [eq_drop_of_fixed? (fun c hc => (hrest c hc).1) h]
  refine expect?_eq_none fun c hc => ?_
  cases hleft : ds.drop count with
  | nil =>
    rw [hleft] at hc
    exact (hrest c hc).2
  | cons d left =>
    rw [hleft] at hc
    obtain rfl : d = c := Option.some.inj hc
    exact ne_of_isDigit (hds d (List.mem_of_mem_drop (hleft ▸ List.mem_cons_self))) hseparator

/-- Digits are not taken for a moment in time if no separator of a date or a time follows them. -/
theorem moment?_eq_none {ds rest : List Char} (hds : ∀ c ∈ ds, c.isDigit = true)
    (hrest : ∀ c ∈ rest.head?, c.isDigit = false ∧ c ≠ '-' ∧ c ≠ ':') :
    moment? (ds ++ rest) = none := by
  have hdate : date? (ds ++ rest) = none := by
    rw [date?]
    cases hyear : fixed? 4 (ds ++ rest) with
    | none => rfl
    | some year =>
      have hnone :=
        fixed?_bind_expect? rfl 4 hds (fun c hc => ⟨(hrest c hc).1, (hrest c hc).2.1⟩) hyear
      simp [hnone]
  have htime : time? (ds ++ rest) = none := by
    rw [time?, hourMinute?]
    cases hhour : fixed? 2 (ds ++ rest) with
    | none => rfl
    | some hour =>
      have hnone :=
        fixed?_bind_expect? rfl 2 hds (fun c hc => ⟨(hrest c hc).1, (hrest c hc).2.2⟩) hhour
      simp [hnone]
  rw [moment?, hdate]
  exact htime

/-- A signed number is not taken for a moment in time either. -/
theorem moment?_minus (text : List Char) : moment? ('-' :: text) = none := by
  have hfixed : ∀ count, fixed? (count + 1) ('-' :: text) = none := by
    intro count
    simp [fixed?]
  have hdate : date? ('-' :: text) = none := by rw [date?, hfixed]; rfl
  have htime : time? ('-' :: text) = none := by rw [time?, hourMinute?, hfixed]; rfl
  rw [moment?, hdate]
  exact htime

theorem moment?_signed (negative : Bool) {ds rest : List Char} (hds : ∀ c ∈ ds, c.isDigit = true)
    (hrest : ∀ c ∈ rest.head?, c.isDigit = false ∧ c ≠ '-' ∧ c ≠ ':') :
    moment? ((if negative then ['-'] else []) ++ (ds ++ rest)) = none := by
  cases negative with
  | true => exact moment?_minus (ds ++ rest)
  | false =>
    rw [if_neg Bool.false_ne_true, List.nil_append]
    exact moment?_eq_none hds hrest

theorem splitSign_append (negative : Bool) {body : List Char}
    (h : ∀ c ∈ body.head?, c.isDigit = true) :
    splitSign ((if negative then ['-'] else []) ++ body) = (negative, body) := by
  cases negative with
  | true => rfl
  | false =>
    cases body with
    | nil => rfl
    | cons c body =>
      have hdigit := h c rfl
      have hminus : c ≠ '-' := ne_of_isDigit hdigit rfl
      have hplus : c ≠ '+' := ne_of_isDigit hdigit rfl
      rw [if_neg Bool.false_ne_true, List.nil_append]
      unfold splitSign
      split
      · rename_i heq
        exact absurd (List.cons.inj heq).1 hminus
      · rename_i heq
        exact absurd (List.cons.inj heq).1 hplus
      · rfl

theorem head_isDigit {ds : List Char} (hds : IsDigits ds) (rest : List Char) :
    ∀ c ∈ (ds ++ rest).head?, c.isDigit = true := by
  cases ds with
  | nil => exact absurd rfl hds.ne_nil
  | cons d ds =>
    rintro _ ⟨⟩
    exact hds.isDigit d List.mem_cons_self

theorem word?_eq_none {text : List Char} (h : ∀ c ∈ text.head?, c.isDigit = true) :
    word? text = none := by
  unfold word?
  split
  · exact absurd (h 'i' rfl) (by decide)
  · exact absurd (h 'n' rfl) (by decide)
  · rfl

theorem exponent?_of_ends {rest : List Char} (h : EndsValue rest) :
    exponent? rest = some (0, rest) := by
  cases rest with
  | nil => rfl
  | cons c rest =>
    have hletter :=
      h.imp (p := fun c => c ≠ 'e' ∧ c ≠ 'E') (by decide) (by decide) (by decide) c rfl
    simp [exponent?, hletter]

/-- Digits with a point are read as the double that they denote. -/
theorem real?_pointed (negative : Bool) {body whole fraction rest : List Char} {value : ℚ}
    {x : Float} (h : IsPointed body value whole fraction)
    (hx : Numeral.toFloat ⟨negative, natOfDigits (whole ++ fraction), -(fraction.length : ℤ)⟩ = x)
    (hfinite : x.isInf = false) (hrest : EndsValue rest) :
    real? ((if negative then ['-'] else []) ++ (body ++ rest)) = some (x, rest) := by
  have hhead := head_isDigit h.isWhole.toIsDigits ('.' :: (fraction ++ rest))
  have hwhole : whole? (whole ++ '.' :: (fraction ++ rest)) =
      some (whole, '.' :: (fraction ++ rest)) :=
    whole?_append h.isWhole (by rintro _ ⟨⟩; decide)
  have hfraction : digits? Char.isDigit (fraction ++ rest) = some (fraction, rest) :=
    digits?_append h.isDigits (hrest.imp (by decide) (by decide) (by decide))
  have hlonger : ¬('.' :: (fraction ++ rest)).length = rest.length := by simp; omega
  rw [h.text_eq, List.append_assoc, List.cons_append, real?, splitSign_append negative hhead]
  simp only [word?_eq_none hhead, hwhole, hfraction, exponent?_of_ends hrest, Option.bind_eq_bind,
    Option.bind_some, beq_iff_eq, hlonger, if_false, zero_sub, hx, hfinite, Bool.false_and,
    Bool.false_eq_true]

/-- Digits without point and exponent are not taken for a real. -/
theorem real?_digits (negative : Bool) (n : ℕ) {rest : List Char} (hrest : EndsValue rest) :
    real? ((if negative then ['-'] else []) ++ (digits n ++ rest)) = none := by
  have hhead := head_isDigit (isWhole_digits n).toIsDigits rest
  have hwhole : whole? (digits n ++ rest) = some (digits n, rest) :=
    whole?_append (isWhole_digits n) (hrest.imp (by decide) (by decide) (by decide))
  have hpoint := hrest.imp (p := (· ≠ '.')) (by decide) (by decide) (by decide)
  rw [real?, splitSign_append negative hhead]
  simp only [word?_eq_none hhead, hwhole, Option.bind_eq_bind, Option.bind_some]
  split
  · exact absurd rfl (hpoint '.' rfl)
  · simp [exponent?_of_ends hrest]

/-- A number in decimal digits is not taken for one in another base. -/
theorem integer?_eq_decimal? {text : List Char}
    (h : ∀ c rest, text = '0' :: c :: rest → base? c = none) :
    integer? text = decimal? text := by
  unfold integer?
  split
  · rename_i c rest
    rw [h c rest rfl]
  · rfl

theorem decimal?_digits (negative : Bool) (n : ℕ) {rest : List Char} (hrest : EndsValue rest) :
    decimal? ((if negative then ['-'] else []) ++ (digits n ++ rest)) =
      (inRange? (if negative then -(n : ℤ) else n)).map (·, rest) := by
  have hhead := head_isDigit (isWhole_digits n).toIsDigits rest
  have hwhole : whole? (digits n ++ rest) = some (digits n, rest) :=
    whole?_append (isWhole_digits n) (hrest.imp (by decide) (by decide) (by decide))
  rw [decimal?, splitSign_append negative hhead]
  simp only [hwhole, natOfDigits_digits, Option.bind_eq_bind, Option.bind_some]
  cases inRange? _ <;> rfl

theorem integer?_digits (negative : Bool) (n : ℕ) {rest : List Char} (hrest : EndsValue rest) :
    integer? ((if negative then ['-'] else []) ++ (digits n ++ rest)) =
      (inRange? (if negative then -(n : ℤ) else n)).map (·, rest) := by
  rw [← decimal?_digits negative n hrest]
  refine integer?_eq_decimal? fun c tail heq => ?_
  cases negative with
  | true => exact absurd (List.cons.inj heq).1 (by decide)
  | false =>
    rw [if_neg Bool.false_ne_true, List.nil_append] at heq
    cases hds : digits n with
    | nil => exact absurd hds (isWhole_digits n).ne_nil
    | cons d ds =>
      rw [hds, List.cons_append, List.cons.injEq] at heq
      obtain ⟨rfl, htail⟩ := heq
      rw [(isWhole_digits n).canonical hds, List.nil_append] at htail
      rw [htail] at hrest
      exact hrest.imp (p := (base? · = none)) rfl rfl rfl c rfl

end Turnery.Toml.Lexical

namespace Turnery.Toml.Reader

open Lexical
open Datum (tomlInteger? tomlReal)

/-- An integer is read as it was written. -/
theorem numeric?_tomlInteger? {n : ℤ} {text : String} (h : tomlInteger? n = some text)
    {rest : List Char} (hrest : EndsValue rest) :
    numeric? (text.toList ++ rest) = some (.integer n, rest) := by
  obtain ⟨m, hm, rfl⟩ := Option.map_eq_some_iff.1 h
  obtain rfl : n = m := by
    rw [inRange?] at hm
    split at hm
    · exact Option.some.inj hm
    · cases hm
  have hsigned : (if decide (n < 0) = true then -(n.natAbs : ℤ) else n.natAbs) = n := by
    by_cases hneg : n < 0
    · rw [if_pos (decide_eq_true hneg)]
      omega
    · rw [if_neg (by simpa using hneg)]
      omega
  have hmoment := moment?_signed (decide (n < 0)) (Number.isDigits_digits n.natAbs).isDigit
    (hrest.imp (by decide) (by decide) (by decide))
  have hreal := real?_digits (decide (n < 0)) n.natAbs hrest
  have hinteger := integer?_digits (decide (n < 0)) n.natAbs hrest
  rw [hsigned, hm] at hinteger
  simp only [decide_eq_true_eq] at hmoment hreal hinteger
  rw [Json.Lexeme.toList_integerText, List.append_assoc, numeric?, hmoment, hreal, hinteger]
  rfl

/-- A finite double is read as it was written. -/
theorem numeric?_tomlReal {x : Float} (h : x.isFinite = true) {rest : List Char}
    (hrest : EndsValue rest) :
    numeric? ((tomlReal x).toList ++ rest) = some (.real x, rest) := by
  obtain ⟨negative, mantissa, exponent, hx⟩ := Number.Binary64.isFinite_iff.1 h
  obtain ⟨body, value, whole, fraction, htext, hshape, hvalue⟩ :=
    Number.FloatStyle.exists_tomlFloat_text hx
  have hmoment : moment? ((if negative then ['-'] else []) ++ (body ++ rest)) = none := by
    rw [hshape.text_eq, List.append_assoc]
    exact moment?_signed negative hshape.isWhole.isDigit (by rintro _ ⟨⟩; decide)
  rw [tomlReal, Number.isNaN_of_isFinite h, if_neg Bool.false_ne_true, htext, List.append_assoc,
    numeric?, hmoment, real?_pointed negative hshape hvalue (Number.isInf_of_isFinite h) hrest]

end Turnery.Toml.Reader
