import Mathlib.Algebra.Group.Nat.Defs
import Mathlib.Data.List.Forall2
import Turnery.Datum.Toml

/-!
# TOML strings read back

A text is written in one of four forms of quotation, whichever needs the fewest escapes.
`string?_tomlString` says that each of them is read as the text it was written for, whatever its
characters. The forms over several lines may hold up to two of their marks in a row, also right
before the three that close them; `longestRun` bounds these runs.
-/

namespace Turnery.Toml.Lexical

open Datum (escapeChar escapeText needsEscape longestRun longOpening longBasic shortBasic
  Quotability tomlString)
open Number (natIn? hexDigits natIn?_hexDigits keepsHex_toUpper)

/-- The escape that stands behind a backslash is read as the character. -/
structure IsEscapeOf (c : Char) (escape : List Char) : Prop where
  text_eq : escapeChar c = '\\' :: escape
  escape? : ∀ rest, escape? (escape ++ rest) = some (c, rest)
  hiddenNewline? : ∀ rest, hiddenNewline? (escape ++ rest) = none

theorem escape?_unit {c : Char} (hc : c.toNat < 0x100) (rest : List Char) :
    escape? (['u'] ++ (hexDigits 4 c.toNat).map Char.toUpper ++ rest) = some (c, rest) := by
  have hread := natIn?_hexDigits keepsHex_toUpper (show c.toNat < 16 ^ 4 by omega)
  have hvalid : c.toNat.isValidChar := by
    simp only [Nat.isValidChar]
    omega
  obtain ⟨d₃, d₂, d₁, d₀, hdigits⟩ :
      ∃ d₃ d₂ d₁ d₀, (hexDigits 4 c.toNat).map Char.toUpper = [d₃, d₂, d₁, d₀] := ⟨_, _, _, _, rfl⟩
  rw [hdigits] at hread ⊢
  simp [escape?, codePoint?, hread, hvalid]

theorem hiddenNewline?_eq_none {c : Char} (hblank : isBlank c = false) (hfeed : c ≠ '\n')
    (hreturn : c ≠ '\r') (rest : List Char) : hiddenNewline? (c :: rest) = none := by
  have hskip : skipBlanks (c :: rest) = c :: rest := by simp [skipBlanks, hblank]
  rw [hiddenNewline?, hskip]
  unfold newline?
  split
  · rename_i heq
    exact absurd (List.cons.inj heq).1 hfeed
  · rename_i heq
    exact absurd (List.cons.inj heq).1 hreturn
  · rfl

theorem escape?_letter {c letter : Char} (hread : escaped? letter = some c)
    (hunit : letter ≠ 'u' ∧ letter ≠ 'U') (rest : List Char) :
    escape? (letter :: rest) = some (c, rest) := by
  unfold escape?
  split
  · rename_i heq
    exact absurd (List.cons.inj heq).1 hunit.1
  · rename_i heq
    exact absurd (List.cons.inj heq).1 hunit.2
  · rename_i heq
    obtain ⟨rfl, rfl⟩ := List.cons.inj heq
    rw [hread, Option.map_some]
  · rename_i heq
    cases heq

/-- The letters of escapes. -/
def IsLetterOf (c letter : Char) : Prop :=
  escaped? letter = some c ∧ (letter ≠ 'u' ∧ letter ≠ 'U') ∧ isBlank letter = false ∧
    letter ≠ '\n' ∧ letter ≠ '\r'

instance (c letter : Char) : Decidable (IsLetterOf c letter) :=
  inferInstanceAs (Decidable (_ ∧ _))

theorem escapeChar_cases (c : Char) :
    (∃ letter, escapeChar c = ['\\', letter] ∧ IsLetterOf c letter) ∨
      escapeChar c = '\\' :: (['u'] ++ (hexDigits 4 c.toNat).map Char.toUpper) := by
  unfold escapeChar
  split
  iterate 7 exact .inl ⟨_, rfl, by decide⟩
  exact .inr rfl

theorem exists_isEscapeOf {c : Char} (hc : c.toNat < 0x100) : ∃ escape, IsEscapeOf c escape := by
  rcases escapeChar_cases c with ⟨letter, htext, hread, hunit, hblank, hfeed, hreturn⟩ | htext
  · exact ⟨[letter], htext, escape?_letter hread hunit, hiddenNewline?_eq_none hblank hfeed hreturn⟩
  · exact ⟨_, htext, escape?_unit hc,
      fun rest => hiddenNewline?_eq_none rfl (by decide) (by decide) _⟩

/-- The character is written as an escape, apart from quotation marks. -/
def escapes (lineFeeds : Bool) (c : Char) : Bool :=
  c == '\\' || c == '\t' || needsEscape c || (c == '\n' && !lineFeeds)

theorem toNat_lt_of_escapes {lineFeeds : Bool} {c : Char} (h : escapes lineFeeds c = true) :
    c.toNat < 0x100 := by
  simp only [escapes, needsEscape, Bool.or_eq_true, Bool.and_eq_true, beq_iff_eq,
    decide_eq_true_eq] at h
  rcases h with ((rfl | rfl) | (⟨⟨h, -⟩, -⟩ | h)) | ⟨rfl, -⟩
  · decide
  · decide
  · omega
  · omega
  · decide

/-- What needs no escape may stand in a string, line feeds and the mark apart. -/
theorem isPlain_of_needsEscape {mark c : Char} (h : needsEscape c = false) (hfeed : c ≠ '\n')
    (hmark : c ≠ mark) :
    isPlain mark c = true := by
  simp only [needsEscape, Bool.or_eq_false_iff, Bool.and_eq_false_iff, beq_eq_false_iff_ne,
    bne_eq_false_iff_eq, decide_eq_false_iff_not, ne_eq] at h
  obtain ⟨(hlow | htab) | hline, hdelete⟩ := h
  · have : 0x20 ≤ c.toNat := by omega
    simp [isPlain, isVisible, hmark, this, hdelete]
  · simpa [isPlain, isVisible, htab] using htab ▸ hmark
  · exact absurd hline hfeed

/-- How one character of a text is written, and how many marks stand in a row behind it. -/
inductive Writes (lineFeeds : Bool) (allowed run : ℕ) : Char → List Char → ℕ → Prop where
  | mark (fits : run < allowed) : Writes lineFeeds allowed run '"' ['"'] (run + 1)
  | escape {c : Char} {escape : List Char} (isEscape : IsEscapeOf c escape) :
    Writes lineFeeds allowed run c ('\\' :: escape) 0
  | plain {c : Char} (hmark : c ≠ '"') (hescape : c ≠ '\\') (hneeds : needsEscape c = false)
    (hfeed : c = '\n' → lineFeeds = true) : Writes lineFeeds allowed run c [c] 0

/-- A text is written character by character. -/
theorem exists_writes (lineFeeds : Bool) (allowed run : ℕ) (c : Char) :
    ∃ piece next, Writes lineFeeds allowed run c piece next ∧
      ∀ cs, escapeText lineFeeds allowed run (c :: cs) =
        piece ++ escapeText lineFeeds allowed next cs := by
  have hcons : ∀ cs, escapeText lineFeeds allowed run (c :: cs) =
      if c = '"' then
        if run < allowed then '"' :: escapeText lineFeeds allowed (run + 1) cs
        else escapeChar '"' ++ escapeText lineFeeds allowed 0 cs
      else if escapes lineFeeds c then escapeChar c ++ escapeText lineFeeds allowed 0 cs
      else c :: escapeText lineFeeds allowed 0 cs := by
    intro cs
    simp only [escapeText, beq_iff_eq]
    rfl
  by_cases hmark : c = '"'
  · subst hmark
    by_cases hfits : run < allowed
    · exact ⟨_, _, .mark hfits, fun cs => by rw [hcons, if_pos rfl, if_pos hfits]; rfl⟩
    · obtain ⟨escape, hescape⟩ := exists_isEscapeOf (show '"'.toNat < 0x100 by decide)
      exact ⟨_, _, .escape hescape,
        fun cs => by rw [hcons, if_pos rfl, if_neg hfits, hescape.text_eq]⟩
  cases hc : escapes lineFeeds c with
  | true =>
    obtain ⟨escape, hescape⟩ := exists_isEscapeOf (toNat_lt_of_escapes hc)
    exact ⟨_, _, .escape hescape, fun cs => by rw [hcons, if_neg hmark, if_pos hc, hescape.text_eq]⟩
  | false =>
    refine ⟨[c], 0, ?_, fun cs => by rw [hcons, if_neg hmark, hc, if_neg Bool.false_ne_true]; rfl⟩
    simp only [escapes, Bool.or_eq_false_iff, Bool.and_eq_false_iff, beq_eq_false_iff_ne,
      ne_eq] at hc
    obtain ⟨⟨⟨hescape, -⟩, hneeds⟩, hfeed⟩ := hc
    refine .plain hmark hescape hneeds fun heq => ?_
    simpa [heq] using hfeed

theorem basic?_escape {c : Char} {text rest : List Char} (h : escape? text = some (c, rest)) :
    basic? ('\\' :: text) = (basic? rest).map fun (cs, rest) => (c :: cs, rest) := by
  rw [basic?]
  split
  · rename_i heq
    rw [h] at heq
    cases heq
  · rename_i heq
    rw [h] at heq
    obtain ⟨rfl, rfl⟩ := Prod.mk.inj (Option.some.inj heq)
    rfl

theorem basic?_plain {c : Char} (hmark : c ≠ '"') (hescape : c ≠ '\\')
    (hplain : isPlain '"' c = true) (rest : List Char) :
    basic? (c :: rest) = (basic? rest).map fun (cs, rest) => (c :: cs, rest) := by
  rw [basic?.eq_def]
  split
  · rename_i heq
    cases heq
  · rename_i heq
    exact absurd (List.cons.inj heq).1 hmark
  · rename_i heq
    exact absurd (List.cons.inj heq).1 hescape
  · rename_i heq
    obtain ⟨rfl, rfl⟩ := List.cons.inj heq
    rw [if_pos hplain]

/-- A text with escapes is read up to the closing mark. -/
theorem basic?_escapeText (cs rest : List Char) :
    basic? (escapeText false 0 0 cs ++ '"' :: rest) = some (cs, rest) := by
  induction cs with
  | nil => rw [escapeText, List.nil_append, basic?]
  | cons c cs ih =>
    obtain ⟨piece, next, hpiece, htext⟩ := exists_writes false 0 0 c
    rw [htext, List.append_assoc]
    cases hpiece with
    | mark hfits => exact absurd hfits (Nat.lt_irrefl 0)
    | escape hescape =>
      rw [List.cons_append, basic?_escape (hescape.escape? _), ih]
      rfl
    | plain hmark hescape hneeds hfeed =>
      have hline : c ≠ '\n' := fun heq => Bool.false_ne_true (hfeed heq)
      rw [List.singleton_append,
        basic?_plain hmark hescape (isPlain_of_needsEscape hneeds hline hmark), ih]
      rfl

/-- A text that holds no apostrophe is read up to the closing one. -/
theorem literal?_append {cs : List Char} (h : ∀ c ∈ cs, isPlain '\'' c = true) (rest : List Char) :
    literal? (cs ++ '\'' :: rest) = some (cs, rest) := by
  induction cs with
  | nil => rw [List.nil_append, literal?]
  | cons c cs ih =>
    have hplain := h c List.mem_cons_self
    have hmark : c ≠ '\'' := by
      rintro rfl
      exact absurd hplain (by decide)
    rw [List.cons_append, literal?.eq_3 _ _ hmark, if_pos hplain,
      ih fun d hd => h d (List.mem_cons_of_mem c hd)]
    rfl

/-- How many marks stand at the front of a text. -/
def leadingMarks (mark : Char) (text : List Char) : ℕ :=
  (text.takeWhile (· == mark)).length

@[simp] theorem leadingMarks_nil (mark : Char) : leadingMarks mark [] = 0 := rfl

@[simp] theorem leadingMarks_mark (mark : Char) (text : List Char) :
    leadingMarks mark (mark :: text) = leadingMarks mark text + 1 := by
  simp [leadingMarks]

theorem leadingMarks_of_ne {mark c : Char} (h : c ≠ mark) (text : List Char) :
    leadingMarks mark (c :: text) = 0 := by
  simp [leadingMarks, h]

theorem leadingMarks_le_longestRun (mark : Char) (run : ℕ) (text : List Char) :
    run + leadingMarks mark text ≤ longestRun mark run text := by
  induction text generalizing run with
  | nil => exact Nat.le_refl run
  | cons c text ih =>
    rw [longestRun]
    by_cases hmark : c = mark
    · subst hmark
      have := ih (run + 1)
      rw [leadingMarks_mark, if_pos (beq_self_eq_true c)]
      omega
    · rw [leadingMarks_of_ne hmark, if_neg (by simpa using hmark)]
      exact Nat.le_max_left _ _

/-- No more marks stand in a row without escape than may. -/
theorem leadingMarks_escapeText (lineFeeds : Bool) {allowed run : ℕ} (hrun : run ≤ allowed)
    (cs : List Char) :
    run + leadingMarks '"' (escapeText lineFeeds allowed run cs) ≤ allowed := by
  induction cs generalizing run with
  | nil => exact hrun
  | cons c cs ih =>
    obtain ⟨piece, next, hpiece, htext⟩ := exists_writes lineFeeds allowed run c
    rw [htext]
    cases hpiece with
    | mark hfits =>
      have := ih (show run + 1 ≤ allowed from hfits)
      rw [List.singleton_append, leadingMarks_mark]
      omega
    | escape =>
      rw [List.cons_append, leadingMarks_of_ne (by decide)]
      exact hrun
    | plain hmark =>
      rw [List.singleton_append, leadingMarks_of_ne hmark]
      exact hrun

/-- A text that is written as marks alone holds no escapes. -/
theorem escapeText_eq_of_all {lineFeeds : Bool} {allowed run : ℕ} {cs : List Char}
    (h : (escapeText lineFeeds allowed run cs).all (· == '"') = true) :
    escapeText lineFeeds allowed run cs = cs := by
  induction cs generalizing run with
  | nil => rfl
  | cons c cs ih =>
    obtain ⟨piece, next, hpiece, htext⟩ := exists_writes lineFeeds allowed run c
    rw [htext, List.all_append, Bool.and_eq_true] at h
    rw [htext, ih h.2]
    cases hpiece with
    | mark => rfl
    | escape => exact absurd h.1 (by simp)
    | plain => rfl

/-- The text does not go on with a mark. -/
def StopsMarks (mark : Char) (rest : List Char) : Prop :=
  ∀ c ∈ rest.head?, c ≠ mark

theorem leadingMarks_append_marks {mark : Char} {text : List Char}
    (htext : text.all (· == mark) = true) (rest : List Char) :
    leadingMarks mark (text ++ rest) = text.length + leadingMarks mark rest := by
  induction text with
  | nil => simp
  | cons c text ih =>
    rw [List.all_cons, Bool.and_eq_true, beq_iff_eq] at htext
    obtain ⟨rfl, htext⟩ := htext
    rw [List.cons_append, leadingMarks_mark, ih htext, List.length_cons]
    omega

theorem leadingMarks_append {mark : Char} {text : List Char} (htext : ¬text.all (· == mark) = true)
    (rest : List Char) : leadingMarks mark (text ++ rest) = leadingMarks mark text := by
  induction text with
  | nil => exact absurd rfl htext
  | cons c text ih =>
    by_cases hmark : c = mark
    · subst hmark
      rw [List.all_cons, beq_self_eq_true, Bool.true_and] at htext
      rw [List.cons_append, leadingMarks_mark, leadingMarks_mark, ih htext]
    · rw [List.cons_append, leadingMarks_of_ne hmark, leadingMarks_of_ne hmark]

theorem StopsMarks.leadingMarks_eq_zero {mark : Char} {rest : List Char}
    (h : StopsMarks mark rest) :
    leadingMarks mark rest = 0 := by
  cases rest with
  | nil => rfl
  | cons c rest => exact leadingMarks_of_ne (h c rfl) rest

/-- Three marks close a string, and up to two before them belong to it. -/
theorem closing?_append {mark : Char} {text rest : List Char} (hshort : leadingMarks mark text ≤ 2)
    (hrest : StopsMarks mark rest) :
    closing? mark (text ++ (List.replicate 3 mark ++ rest)) =
      if text.all (· == mark) then some (text, rest) else none := by
  have hclosing : leadingMarks mark (List.replicate 3 mark ++ rest) = 3 := by
    rw [leadingMarks_append_marks (by simp), hrest.leadingMarks_eq_zero, List.length_replicate]
  have hcount : closing? mark (text ++ (List.replicate 3 mark ++ rest)) =
      if leadingMarks mark (text ++ (List.replicate 3 mark ++ rest)) < 3 then none
      else
        let extra := min (leadingMarks mark (text ++ (List.replicate 3 mark ++ rest)) - 3) 2
        some (List.replicate extra mark,
          (text ++ (List.replicate 3 mark ++ rest)).drop (extra + 3)) := rfl
  by_cases hall : text.all (· == mark) = true
  · have hmarks := leadingMarks_append_marks hall
    have hlength : text.length ≤ 2 := by
      have := hmarks []
      rw [List.append_nil, leadingMarks_nil] at this
      omega
    have hextra : min (text.length + 3 - 3) 2 = text.length := by omega
    have htext : List.replicate text.length mark = text :=
      (List.eq_replicate_iff.2 ⟨rfl, fun c hc => by simpa using List.all_eq_true.1 hall c hc⟩).symm
    have hdrop : (text ++ (List.replicate 3 mark ++ rest)).drop (text.length + 3) = rest := by
      rw [← List.drop_drop, List.drop_left, List.drop_left' (by simp)]
    rw [if_pos hall, hcount, hmarks, hclosing, if_neg (by omega)]
    simp only [hextra, htext, hdrop]
  · rw [if_neg hall, hcount, leadingMarks_append hall, if_pos (by omega)]

theorem basicLines?_newline (rest : List Char) :
    basicLines? ('\n' :: rest) = (basicLines? rest).map fun (cs, rest) => ('\n' :: cs, rest) := by
  rw [basicLines?]

theorem basicLines?_closed {text : List Char} {result : List Char × List Char}
    (h : closing? '"' ('"' :: text) = some result) : basicLines? ('"' :: text) = some result := by
  rw [basicLines?, h]

theorem basicLines?_mark {text : List Char} (h : closing? '"' ('"' :: text) = none) :
    basicLines? ('"' :: text) = (basicLines? text).map fun (cs, rest) => ('"' :: cs, rest) := by
  rw [basicLines?, h]

theorem basicLines?_escape {c : Char} {text rest : List Char} (hhidden : hiddenNewline? text = none)
    (h : escape? text = some (c, rest)) :
    basicLines? ('\\' :: text) = (basicLines? rest).map fun (cs, rest) => (c :: cs, rest) := by
  rw [basicLines?]
  split
  · rename_i heq
    rw [hhidden] at heq
    cases heq
  · split
    · rename_i heq
      rw [h] at heq
      cases heq
    · rename_i heq
      rw [h] at heq
      obtain ⟨rfl, rfl⟩ := Prod.mk.inj (Option.some.inj heq)
      rfl

theorem basicLines?_plain {c : Char} (hescape : c ≠ '\\') (hplain : isPlain '"' c = true)
    (rest : List Char) :
    basicLines? (c :: rest) = (basicLines? rest).map fun (cs, rest) => (c :: cs, rest) := by
  rw [basicLines?.eq_def]
  split
  · rename_i heq
    cases heq
  · rename_i heq
    obtain ⟨rfl, -⟩ := List.cons.inj heq
    exact absurd hplain (by decide)
  · rename_i heq
    obtain ⟨rfl, -⟩ := List.cons.inj heq
    exact absurd hplain (by decide)
  · rename_i heq
    obtain ⟨rfl, -⟩ := List.cons.inj heq
    exact absurd hplain (by decide)
  · rename_i heq
    exact absurd (List.cons.inj heq).1 hescape
  · rename_i heq
    obtain ⟨rfl, rfl⟩ := List.cons.inj heq
    rw [if_pos hplain]

/-- A text with escapes over several lines is read up to the closing marks. -/
theorem basicLines?_escapeText {run : ℕ} (hrun : run ≤ 2) (cs : List Char) {rest : List Char}
    (hrest : StopsMarks '"' rest) :
    basicLines? (escapeText true 2 run cs ++ (List.replicate 3 '"' ++ rest)) = some (cs, rest) := by
  induction cs generalizing run with
  | nil =>
    exact basicLines?_closed (@closing?_append _ [] _ (Nat.zero_le 2) hrest)
  | cons c cs ih =>
    obtain ⟨piece, next, hpiece, htext⟩ := exists_writes true 2 run c
    have hshort := leadingMarks_escapeText true hrun (c :: cs)
    rw [htext] at hshort
    rw [htext, List.append_assoc]
    cases hpiece with
    | mark hfits =>
      have hclosing := closing?_append (Nat.le_of_add_left_le hshort) hrest
      rw [List.append_assoc, List.singleton_append] at hclosing
      rw [List.singleton_append]
      split at hclosing
      · rename_i hall
        rw [List.all_append, Bool.and_eq_true] at hall
        rw [basicLines?_closed hclosing, escapeText_eq_of_all hall.2]
        rfl
      · rw [basicLines?_mark hclosing, ih hfits]
        rfl
    | escape hescape =>
      rw [List.cons_append, basicLines?_escape (hescape.hiddenNewline? _) (hescape.escape? _),
        ih (Nat.zero_le 2)]
      rfl
    | plain hmark hescape hneeds =>
      rw [List.singleton_append]
      by_cases hfeed : c = '\n'
      · subst hfeed
        rw [basicLines?_newline, ih (Nat.zero_le 2)]
        rfl
      · rw [basicLines?_plain hescape (isPlain_of_needsEscape hneeds hfeed hmark),
          ih (Nat.zero_le 2)]
        rfl

theorem literalLines?_plain {c : Char} (hplain : isPlain '\'' c = true) (rest : List Char) :
    literalLines? (c :: rest) = (literalLines? rest).map fun (cs, rest) => (c :: cs, rest) := by
  rw [literalLines?.eq_def]
  split
  · rename_i heq
    cases heq
  · rename_i heq
    obtain ⟨rfl, -⟩ := List.cons.inj heq
    exact absurd hplain (by decide)
  · rename_i heq
    obtain ⟨rfl, -⟩ := List.cons.inj heq
    exact absurd hplain (by decide)
  · rename_i heq
    obtain ⟨rfl, -⟩ := List.cons.inj heq
    exact absurd hplain (by decide)
  · rename_i heq
    obtain ⟨rfl, rfl⟩ := List.cons.inj heq
    rw [if_pos hplain]

/-- A text over several lines with few apostrophes in a row is read up to the closing ones. -/
theorem literalLines?_append {run : ℕ} {cs rest : List Char} (hruns : longestRun '\'' run cs ≤ 2)
    (hchars : ∀ c ∈ cs, c = '\n' ∨ c = '\'' ∨ isPlain '\'' c = true)
    (hrest : StopsMarks '\'' rest) :
    literalLines? (cs ++ (List.replicate 3 '\'' ++ rest)) = some (cs, rest) := by
  induction cs generalizing run with
  | nil =>
    have hclosed : closing? '\'' ('\'' :: (['\'', '\''] ++ rest)) = some ([], rest) :=
      @closing?_append _ [] _ (Nat.zero_le 2) hrest
    change literalLines? ('\'' :: (['\'', '\''] ++ rest)) = _
    rw [literalLines?, hclosed]
  | cons c cs ih =>
    have hshort := leadingMarks_le_longestRun '\'' run (c :: cs)
    have hothers : ∀ d ∈ cs, d = '\n' ∨ d = '\'' ∨ isPlain '\'' d = true :=
      fun d hd => hchars d (List.mem_cons_of_mem c hd)
    have hzero : c ≠ '\'' → longestRun '\'' 0 cs ≤ 2 := by
      intro hmark
      rw [longestRun, if_neg (by simpa using hmark)] at hruns
      omega
    rcases hchars c List.mem_cons_self with rfl | rfl | hplain
    · rw [List.cons_append, literalLines?, ih (hzero (by decide)) hothers]
      rfl
    · have hclosing := closing?_append (Nat.le_trans (Nat.le_of_add_left_le hshort) hruns) hrest
      rw [List.cons_append] at hclosing ⊢
      rw [literalLines?, hclosing]
      split
      · rename_i heq
        split at heq
        · exact heq.symm
        · cases heq
      · rw [longestRun, if_pos (beq_self_eq_true _)] at hruns
        rw [ih hruns hothers]
        rfl
    · have hmark : c ≠ '\'' := by
        rintro rfl
        exact absurd hplain (by decide)
      rw [List.cons_append, literalLines?_plain hplain, ih (hzero hmark) hothers]
      rfl

theorem string?_basic {text : List Char} (h : leadingMarks '"' text < 2) :
    string? ('"' :: text) = basic? text := by
  unfold string?
  split
  · rename_i heq
    obtain ⟨-, rfl⟩ := List.cons.inj heq
    simp only [leadingMarks_mark] at h
    omega
  · rename_i heq
    rw [(List.cons.inj heq).2]
  · rename_i heq
    exact absurd (List.cons.inj heq).1 (by decide)
  · rename_i heq
    exact absurd (List.cons.inj heq).1 (by decide)
  · rename_i hnone _ _
    exact absurd rfl (hnone text)

theorem string?_literal {text : List Char} (h : leadingMarks '\'' text < 2) :
    string? ('\'' :: text) = literal? text := by
  unfold string?
  split
  · rename_i heq
    exact absurd (List.cons.inj heq).1 (by decide)
  · rename_i heq
    exact absurd (List.cons.inj heq).1 (by decide)
  · rename_i heq
    obtain ⟨-, rfl⟩ := List.cons.inj heq
    simp only [leadingMarks_mark] at h
    omega
  · rename_i heq
    rw [(List.cons.inj heq).2]
  · rename_i hnone
    exact absurd rfl (hnone text)

/-- A text that does not start with a mark is not taken for a string over several lines. -/
theorem leadingMarks_short {mark : Char} {body rest : List Char}
    (hbody : leadingMarks mark body = 0) (hrest : StopsMarks mark rest) :
    leadingMarks mark (body ++ mark :: rest) < 2 := by
  cases body with
  | nil => rw [List.nil_append, leadingMarks_mark, hrest.leadingMarks_eq_zero]; decide
  | cons c body =>
    have hmark : c ≠ mark := by
      rintro rfl
      rw [leadingMarks_mark] at hbody
      omega
    rw [List.cons_append, leadingMarks_of_ne hmark]
    decide

theorem string?_shortBasic (cs : List Char) {rest : List Char} (hrest : StopsMarks '"' rest) :
    string? (shortBasic cs ++ rest) = some (cs, rest) := by
  have hbody : leadingMarks '"' (escapeText false 0 0 cs) = 0 := by
    have := leadingMarks_escapeText false (Nat.le_refl 0) cs
    omega
  rw [shortBasic, List.append_assoc, List.cons_append, List.singleton_append,
    string?_basic (leadingMarks_short hbody hrest), basic?_escapeText]

theorem string?_shortLiteral {cs : List Char} (h : ∀ c ∈ cs, isPlain '\'' c = true)
    {rest : List Char} (hrest : StopsMarks '\'' rest) :
    string? ('\'' :: cs ++ ['\''] ++ rest) = some (cs, rest) := by
  have hbody : leadingMarks '\'' cs = 0 := by
    cases cs with
    | nil => rfl
    | cons c cs =>
      refine leadingMarks_of_ne ?_ cs
      rintro rfl
      exact absurd (h _ List.mem_cons_self) (by decide)
  rw [List.append_assoc, List.cons_append, List.singleton_append,
    string?_literal (leadingMarks_short hbody hrest), literal?_append h]

/-- Behind the opening of a string over several lines its text comes next. -/
theorem skipNewline_opening {newline : Bool} {text : List Char}
    (h : newline = false → ∀ c ∈ text.head?, c ≠ '\n' ∧ c ≠ '\r') :
    skipNewline ((if newline then ['\n'] else []) ++ text) = text := by
  cases newline with
  | true => rfl
  | false =>
    have hnone : newline? text = none := by
      unfold newline?
      split
      · exact absurd rfl (h rfl _ rfl).1
      · exact absurd rfl (h rfl _ rfl).2
      · rfl
    change (newline? text).getD text = text
    rw [hnone, Option.getD_none]

/-- A line break at the front of a text with escapes is one of the text itself. -/
theorem head_escapeText {lineFeeds : Bool} {allowed run : ℕ} {cs : List Char} (hfeed : '\n' ∉ cs)
    (rest : List Char) :
    ∀ c ∈ (escapeText lineFeeds allowed run cs ++ '"' :: rest).head?, c ≠ '\n' ∧ c ≠ '\r' := by
  cases cs with
  | nil =>
    rintro d ⟨⟩
    decide
  | cons c cs =>
    obtain ⟨piece, next, hpiece, htext⟩ := exists_writes lineFeeds allowed run c
    rw [htext]
    cases hpiece with
    | mark =>
      rintro d ⟨⟩
      decide
    | escape =>
      rintro d ⟨⟩
      decide
    | plain hmark hescape hneeds =>
      rintro d ⟨⟩
      refine ⟨fun h => hfeed (h ▸ List.mem_cons_self), ?_⟩
      rintro rfl
      exact absurd hneeds (by decide)

theorem string?_longBasic {newline : Bool} {cs : List Char} (hnewline : newline = false → '\n' ∉ cs)
    {rest : List Char} (hrest : StopsMarks '"' rest) :
    string? (longBasic newline cs ++ rest) = some (cs, rest) := by
  have hskip :=
    @skipNewline_opening newline (escapeText true 2 0 cs ++ (List.replicate 3 '"' ++ rest))
    fun hfalse => head_escapeText (hnewline hfalse) _
  have hread := basicLines?_escapeText (Nat.zero_le 2) cs hrest
  rw [← hskip] at hread
  rw [longBasic, longOpening, List.append_assoc, List.append_assoc, List.append_assoc]
  exact hread

theorem string?_longLiteral {newline : Bool} {cs : List Char}
    (hnewline : newline = false → '\n' ∉ cs) (hruns : longestRun '\'' 0 cs ≤ 2)
    (hescapes : ∀ c ∈ cs, needsEscape c = false) {rest : List Char} (hrest : StopsMarks '\'' rest) :
    string? (longOpening '\'' newline ++ cs ++ List.replicate 3 '\'' ++ rest) =
      some (cs, rest) := by
  have hchars : ∀ c ∈ cs, c = '\n' ∨ c = '\'' ∨ isPlain '\'' c = true := by
    intro c hc
    by_cases hfeed : c = '\n'
    · exact .inl hfeed
    by_cases hmark : c = '\''
    · exact .inr (.inl hmark)
    · exact .inr (.inr (isPlain_of_needsEscape (hescapes c hc) hfeed hmark))
  have hskip := @skipNewline_opening newline (cs ++ (List.replicate 3 '\'' ++ rest)) <| by
    intro hfalse
    cases cs with
    | nil =>
      rintro d ⟨⟩
      decide
    | cons c cs =>
      rintro d ⟨⟩
      refine ⟨fun h => hnewline hfalse (h ▸ List.mem_cons_self), ?_⟩
      rintro rfl
      exact absurd (hescapes _ List.mem_cons_self) (by decide)
  have hread := literalLines?_append hruns hchars hrest
  rw [← hskip] at hread
  rw [longOpening, List.append_assoc, List.append_assoc, List.append_assoc]
  exact hread

theorem longestRun_eq_zero {mark : Char} {cs : List Char} (h : longestRun mark 0 cs = 0) :
    mark ∉ cs := by
  induction cs with
  | nil => exact List.not_mem_nil
  | cons c cs ih =>
    rw [longestRun] at h
    by_cases hmark : c = mark
    · have := leadingMarks_le_longestRun mark (0 + 1) cs
      rw [if_pos (by simpa using hmark)] at h
      omega
    · rw [if_neg (by simpa using hmark)] at h
      simpa [Ne.symm hmark] using ih (by omega)

/-- The text cannot go on a string that stands before it. -/
def EndsString (rest : List Char) : Prop :=
  StopsMarks '"' rest ∧ StopsMarks '\'' rest

/-- A text is read as it was written, in whatever form. -/
theorem string?_tomlString (s : String) {rest : List Char} (hrest : EndsString rest) :
    string? ((tomlString s).toList ++ rest) = some (s.toList, rest) := by
  rw [tomlString, String.toList_ofList]
  generalize s.toList = cs
  have hescapes : (!(Quotability.ofText cs).escapes) = true → ∀ c ∈ cs, needsEscape c = false := by
    intro h c hc
    simpa using List.any_eq_false.1 (Bool.not_eq_true' _ ▸ h) c hc
  have hnewline : (Quotability.ofText cs).newline = false → '\n' ∉ cs := by
    intro h
    simpa [Quotability.ofText] using h
  split
  · exact string?_shortBasic cs hrest.1
  split
  · rename_i h
    simp only [Bool.and_eq_true, beq_iff_eq] at h
    refine string?_shortLiteral (fun c hc => isPlain_of_needsEscape (hescapes h.1.1 c hc) ?_ ?_)
      hrest.2
    · rintro rfl
      exact hnewline (by simpa using h.1.2) hc
    · rintro rfl
      exact longestRun_eq_zero h.2 hc
  split
  · exact string?_longBasic hnewline hrest.1
  split
  · rename_i h
    simp only [Bool.and_eq_true, decide_eq_true_eq] at h
    exact string?_longLiteral hnewline h.2 (hescapes h.1) hrest.2
  split
  · exact @string?_longBasic true cs (fun h => nomatch h) rest hrest.1
  · exact string?_shortBasic cs hrest.1

end Turnery.Toml.Lexical
