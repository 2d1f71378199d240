import Turnery.Text.CharacterClass

/-!
# Decimals in running text

A decimal in running text is an optional sign and digits of any script with at most one point among
or before them. The longest one at the front of a text is split off; `takeDecimal?_append` says that
nothing is lost, and `takeDecimal?_ne_nil` that something is taken.
-/

namespace Turnery.Text

/-- The digits at the front of a text, and the rest. -/
def takeDigits (text : List Char) : List Char × List Char :=
  (text.takeWhile isDecimalDigit, text.dropWhile isDecimalDigit)

theorem takeDigits_append (text : List Char) : (takeDigits text).1 ++ (takeDigits text).2 = text :=
  List.takeWhile_append_dropWhile

/-- The decimal without sign at the front of a text, and the rest. A point without digits in front
needs digits behind it. -/
def takeUnsigned? (text : List Char) : Option (List Char × List Char) :=
  let (whole, rest) := takeDigits text
  match rest with
  | '.' :: afterPoint =>
    let (fraction, rest') := takeDigits afterPoint
    if whole.isEmpty && fraction.isEmpty then none
    else some (whole ++ '.' :: fraction, rest')
  | _ => if whole.isEmpty then none else some (whole, rest)

def takeDecimal? : List Char → Option (List Char × List Char)
  | '-' :: text => (takeUnsigned? text).map fun (lexeme, rest) => ('-' :: lexeme, rest)
  | '+' :: text => (takeUnsigned? text).map fun (lexeme, rest) => ('+' :: lexeme, rest)
  | text => takeUnsigned? text

theorem takeUnsigned?_append {text lexeme rest : List Char}
    (h : takeUnsigned? text = some (lexeme, rest)) : lexeme ++ rest = text := by
  have whole := takeDigits_append text
  unfold takeUnsigned? at h
  simp only at h
  split at h
  · rename_i afterPoint hrest
    have part := takeDigits_append afterPoint
    split at h
    · cases h
    · simp only [Option.some.injEq, Prod.mk.injEq] at h
      rw [← h.1, ← h.2, List.append_assoc, List.cons_append, part, ← hrest, whole]
  · split at h
    · cases h
    · simp only [Option.some.injEq, Prod.mk.injEq] at h
      rw [← h.1, ← h.2, whole]

theorem takeUnsigned?_ne_nil {text lexeme rest : List Char}
    (h : takeUnsigned? text = some (lexeme, rest)) : lexeme ≠ [] := by
  unfold takeUnsigned? at h
  simp only at h
  split at h
  · split at h
    · cases h
    · simp only [Option.some.injEq, Prod.mk.injEq] at h
      simp [← h.1]
  · split at h
    · cases h
    · rename_i hne
      simp only [Option.some.injEq, Prod.mk.injEq] at h
      simpa [← h.1] using hne

theorem takeDecimal?_append {text lexeme rest : List Char}
    (h : takeDecimal? text = some (lexeme, rest)) : lexeme ++ rest = text := by
  unfold takeDecimal? at h
  split at h
  all_goals first
    | exact takeUnsigned?_append h
    | obtain ⟨⟨l, r⟩, hl, heq⟩ := Option.map_eq_some_iff.1 h
      simp only [Prod.mk.injEq] at heq
      rw [← heq.1, ← heq.2, List.cons_append, takeUnsigned?_append hl]

theorem takeDecimal?_ne_nil {text lexeme rest : List Char}
    (h : takeDecimal? text = some (lexeme, rest)) : lexeme ≠ [] := by
  unfold takeDecimal? at h
  split at h
  all_goals first
    | exact takeUnsigned?_ne_nil h
    | obtain ⟨⟨l, r⟩, hl, heq⟩ := Option.map_eq_some_iff.1 h
      simp only [Prod.mk.injEq] at heq
      simp [← heq.1]

/-- What is left after a decimal is shorter than the text. -/
theorem takeDecimal?_length {text lexeme rest : List Char}
    (h : takeDecimal? text = some (lexeme, rest)) : rest.length < text.length := by
  have happ := congrArg List.length (takeDecimal?_append h)
  have hpos := List.length_pos_iff.2 (takeDecimal?_ne_nil h)
  rw [List.length_append] at happ
  omega

end Turnery.Text
