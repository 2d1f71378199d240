import Turnery.Datum.Json
import Turnery.Proofs.Number.FloatStyle

/-!
# JSON numbers read back

The text of a number is split off whatever follows it, `take?_append`, and integers of 64 bits have
the value for which they were written, `value?_integerText`. The double of a text is found by
arithmetic in doubles, which is not exact for all of them; `ReadsBack` says that it is for a given
one.
-/

namespace Turnery.Json.Lexeme

open Number

/-- The text cannot go on a number that stands before it. -/
def Ends (rest : List Char) : Prop :=
  ∀ c ∈ rest.head?, c.isDigit = false ∧ c ≠ '.' ∧ c ≠ 'e' ∧ c ≠ 'E'

theorem ends_nil : Ends [] := by
  simp [Ends]

theorem takeMinus_of_isDigit {d : Char} (hd : d.isDigit = true) (rest : List Char) :
    takeMinus (d :: rest) = ([], d :: rest) := by
  apply takeMinus.eq_2
  rintro _ ⟨⟩
  exact absurd hd (by decide)

theorem takeWhole?_append {whole rest : List Char} (h : IsWhole whole)
    (hrest : ∀ c ∈ rest.head?, c.isDigit = false) :
    takeWhole? (whole ++ rest) = some (whole, rest) := by
  rw [takeWhole?, splitDigits_append_of_isDigits h.toIsDigits hrest]
  dsimp only
  split
  · exact absurd rfl h.ne_nil
  · have := h.canonical rfl
    cases this
  · rfl

theorem takeFraction?_append {fraction rest : List Char}
    (h : fraction = [] ∨ ∃ es, IsDigits es ∧ fraction = '.' :: es)
    (hrest : ∀ c ∈ rest.head?, c.isDigit = false ∧ c ≠ '.') :
    takeFraction? (fraction ++ rest) = some (fraction, rest) := by
  rcases h with rfl | ⟨es, hes, rfl⟩
  · rw [List.nil_append]
    apply takeFraction?.eq_2
    rintro _ rfl
    exact (hrest '.' rfl).2 rfl
  · rw [List.cons_append, takeFraction?,
      splitDigits_append_of_isDigits hes fun c hc => (hrest c hc).1]
    simp [hes.ne_nil]

theorem takeExponent?_append {exponent rest : List Char}
    (h : exponent = [] ∨ ∃ sign es, (sign = '-' ∨ sign = '+') ∧ IsDigits es ∧
      exponent = 'e' :: sign :: es)
    (hrest : Ends rest) : takeExponent? (exponent ++ rest) = some (exponent, rest) := by
  rcases h with rfl | ⟨sign, es, hsign, hes, rfl⟩
  · rw [List.nil_append]
    cases rest with
    | nil => rfl
    | cons c rest =>
      obtain ⟨-, -, hsmall, hcapital⟩ := hrest c rfl
      simp [takeExponent?, hsmall, hcapital]
  · have hsplit := splitDigits_append_of_isDigits hes fun c hc => (hrest c hc).1
    rcases hsign with rfl | rfl
    · simp [takeExponent?, takeSign, hsplit, hes.ne_nil]
    · simp [takeExponent?, takeSign, hsplit, hes.ne_nil]

/-- A number is split off as a whole. -/
theorem take?_append (negative : Bool) {body whole fraction exponent rest : List Char}
    (h : IsNumberText body whole fraction exponent) (hrest : Ends rest) :
    take? ((if negative then ['-'] else []) ++ body ++ rest) =
      some ((if negative then ['-'] else []) ++ body, rest) := by
  have hexponent := takeExponent?_append h.exponent_eq hrest
  have hbehind : ∀ c ∈ (exponent ++ rest).head?, c.isDigit = false ∧ c ≠ '.' := by
    rcases h.exponent_eq with rfl | ⟨sign, es, -, -, rfl⟩
    · exact fun c hc => ⟨(hrest c hc).1, (hrest c hc).2.1⟩
    · rintro _ ⟨⟩
      decide
  have hfraction := takeFraction?_append h.fraction_eq hbehind
  have hpoint : ∀ c ∈ (fraction ++ (exponent ++ rest)).head?, c.isDigit = false := by
    rcases h.fraction_eq with rfl | ⟨es, -, rfl⟩
    · exact fun c hc => (hbehind c hc).1
    · rintro _ ⟨⟩
      decide
  have hwhole := takeWhole?_append h.isWhole hpoint
  have hminus : takeMinus ((if negative then ['-'] else []) ++
      (whole ++ (fraction ++ (exponent ++ rest)))) =
      (if negative then ['-'] else [], whole ++ (fraction ++ (exponent ++ rest))) := by
    cases negative with
    | true => rfl
    | false =>
      obtain ⟨d, tail, hd, hdigit⟩ := (IsUnsigned.whole h.isWhole.toIsDigits).exists_cons
      simp [hd, takeMinus_of_isDigit hdigit]
  rw [h.text_eq]
  simp only [List.append_assoc] at hminus ⊢
  rw [take?, hminus]
  simp only [hwhole, hfraction, hexponent, Option.bind_eq_bind, Option.bind_some, List.append_assoc]

/-- A text that starts with a digit or a minus sign. -/
theorem exists_cons_of_isNumberText (negative : Bool) {body whole fraction exponent : List Char}
    (h : IsNumberText body whole fraction exponent) :
    ∃ d rest, (if negative then ['-'] else []) ++ body = d :: rest ∧
      (d = '-' ∨ d.isDigit = true) := by
  obtain ⟨d, tail, hd, hdigit⟩ := (IsUnsigned.whole h.isWhole.toIsDigits).exists_cons
  cases negative with
  | true => exact ⟨'-', body, rfl, .inl rfl⟩
  | false => exact ⟨d, tail ++ fraction ++ exponent, by simp [h.text_eq, hd], .inr hdigit⟩

theorem toList_integerText (n : ℤ) :
    (Datum.integerText n).toList = (if n < 0 then ['-'] else []) ++ digits n.natAbs := by
  rw [Datum.integerText, Number.signed, Number.natText]
  split
  · rename_i hneg
    rw [if_pos (by simpa using hneg), String.toList_append, String.toList_ofList]
    simp
  · rename_i hneg
    rw [if_neg (by simpa using hneg), String.toList_ofList, List.nil_append]

theorem parts_integer (negative : Bool) (n : ℕ) :
    parts ((if negative then ['-'] else []) ++ digits n) =
      { negative, whole := digits n, fraction := [], exponent := none, isInteger := true } := by
  have hsplit := splitDigits_of_isDigits (isDigits_digits n)
  have hminus : takeMinus ((if negative then ['-'] else []) ++ digits n) =
      (if negative then ['-'] else [], digits n) := by
    cases negative with
    | true => rfl
    | false =>
      obtain ⟨d, tail, hd, hdigit⟩ := (IsUnsigned.whole (isDigits_digits n)).exists_cons
      simp [hd, takeMinus_of_isDigit hdigit]
  rw [parts, hminus]
  simp only [hsplit]
  cases negative <;> rfl

/-- Integers of 64 bits, with or without sign, have the value for which they were written. -/
theorem value?_integerText {n : ℤ} (hlow : -2 ^ 63 ≤ n) (hhigh : n < 2 ^ 64) :
    value? (Datum.integerText n).toList = some (.integer n) := by
  have hparts := parts_integer (decide (n < 0)) n.natAbs
  simp only [decide_eq_true_eq] at hparts
  rw [value?, toList_integerText, hparts]
  have hpow : Nat.pow 2 64 = 2 ^ 64 ∧ Nat.pow 2 63 = 2 ^ 63 := ⟨rfl, rfl⟩
  simp only [natOfDigits_digits, hpow]
  by_cases hneg : n < 0
  · rw [if_neg (by simp [hneg]), if_pos (by simp [hneg]; omega), Option.some.injEq,
      NumberValue.integer.injEq]
    omega
  · rw [if_pos (by simp [hneg]; omega), Option.some.injEq, NumberValue.integer.injEq]
    omega

/-- The arithmetic of the reader finds the double again for which the text was written. -/
def ReadsBack (x : Float) : Prop :=
  value? (Datum.jsonReal x).toList = some (.real x)

def denoted? : NumberValue → Option Binary64
  | .real x => some (Binary64.ofFloat x)
  | _ => none

/-- A finite double is found again if the value of its text denotes the same number, which can be
computed. -/
theorem readsBack_of_denoted? {x : Float} (hx : x.isFinite = true)
    (h : (value? (Datum.jsonReal x).toList).bind denoted? = some (Binary64.ofFloat x)) :
    ReadsBack x := by
  obtain ⟨v, hv, hdenoted⟩ := Option.bind_eq_some_iff.1 h
  cases v with
  | real y =>
    obtain rfl := Binary64.ofFloat_inj hx (Option.some.inj hdenoted).symm
    exact hv
  | _ => cases hdenoted

end Turnery.Json.Lexeme
