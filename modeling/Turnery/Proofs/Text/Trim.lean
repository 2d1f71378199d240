import Mathlib.Data.List.TakeWhile
import Turnery.Text.CharacterClass
import Turnery.Text.Lines

/-!
# Blanks and line ends around a text

Trimming takes the blanks around a text and nothing else, and a line is read up to its end, however
the end is written.
-/

namespace Turnery.Text

/-- The text neither starts nor ends with a blank. -/
structure IsTrimmed (text : List Char) : Prop where
  head : ∀ c ∈ text.head?, isBlank c = false
  last : ∀ c ∈ text.getLast?, isBlank c = false

theorem isTrimmed_iff {text : List Char} :
    IsTrimmed text ↔ text.head?.all (!isBlank ·) = true ∧
      text.getLast?.all (!isBlank ·) = true := by
  simp only [Option.all_eq_true, Bool.not_eq_true']
  exact ⟨fun h => ⟨h.head, h.last⟩, fun h => ⟨h.1, h.2⟩⟩

instance (text : List Char) : Decidable (IsTrimmed text) :=
  decidable_of_iff' _ isTrimmed_iff

/-- A line feed, or a carriage return and a line feed. -/
inductive IsLineEnd : List Char → Prop where
  | lineFeed : IsLineEnd ['\n']
  | carriageReturn : IsLineEnd ['\r', '\n']

theorem isBlank_eq_false_of_isDigit {c : Char} (h : c.isDigit = true) : isBlank c = false := by
  have hrange := Char.isDigit_iff_toNat.1 h
  have hzero : '0'.toNat = 48 := rfl
  have hnine : '9'.toNat = 57 := rfl
  rw [hzero, hnine] at hrange
  rw [isBlank, Bool.eq_false_iff]
  intro hblank
  obtain ⟨range, hmem, hlow, hhigh⟩ := CodeRange.covers_iff.1 hblank
  simp only [blankRanges, List.mem_cons, List.not_mem_nil, or_false] at hmem
  rcases hmem with rfl | rfl | rfl | rfl | rfl | rfl | rfl | rfl | rfl | rfl <;>
    (dsimp only at hlow hhigh; omega)

theorem trimStart_append_of_isBlank {before : List Char} (h : ∀ c ∈ before, isBlank c = true)
    (rest : List Char) :
    trimStart (before ++ rest) = trimStart rest :=
  List.dropWhile_append_of_pos h

/-- A text is blanks and what is left without them. -/
theorem exists_blanks_append_trimStart (text : List Char) :
    ∃ blanks, (∀ c ∈ blanks, isBlank c = true) ∧ text = blanks ++ trimStart text :=
  ⟨text.takeWhile isBlank, fun _ hc => List.mem_takeWhile_imp hc,
    List.takeWhile_append_dropWhile.symm⟩

theorem trimEnd_append_of_isBlank (text : List Char) {after : List Char}
    (h : ∀ c ∈ after, isBlank c = true) :
    trimEnd (text ++ after) = trimEnd text := by
  have hreverse : ∀ c ∈ after.reverse, isBlank c = true := fun c hc => h c (List.mem_reverse.1 hc)
  rw [trimEnd, List.reverse_append, List.dropWhile_append_of_pos hreverse]
  rfl

theorem trimStart_cons_of_not_isBlank {c : Char} (h : isBlank c = false) (rest : List Char) :
    trimStart (c :: rest) = c :: rest :=
  List.dropWhile_cons_of_neg (by simp [h])

theorem trimStart_append_of_head {text : List Char} (hne : text ≠ [])
    (h : ∀ c ∈ text.head?, isBlank c = false) (rest : List Char) :
    trimStart (text ++ rest) = text ++ rest := by
  cases text with
  | nil => exact absurd rfl hne
  | cons c tail => exact trimStart_cons_of_not_isBlank (h c rfl) (tail ++ rest)

theorem trimEnd_of_last {text : List Char} (h : ∀ c ∈ text.getLast?, isBlank c = false) :
    trimEnd text = text := by
  rw [← List.head?_reverse] at h
  rw [trimEnd]
  cases hrev : text.reverse with
  | nil =>
    rw [List.reverse_eq_nil_iff.1 hrev]
    rfl
  | cons c tail =>
    have hc : isBlank c = false := h c (by rw [hrev]; rfl)
    rw [List.dropWhile_cons_of_neg (by simp [hc]), ← hrev, List.reverse_reverse]

/-- Trimming takes the blanks around a text and nothing else. -/
theorem trim_append {before text after : List Char} (hbefore : ∀ c ∈ before, isBlank c = true)
    (h : IsTrimmed text) (hafter : ∀ c ∈ after, isBlank c = true) :
    trim (before ++ (text ++ after)) = text := by
  rw [trim, trimStart_append_of_isBlank hbefore]
  by_cases hnil : text = []
  · subst hnil
    have hall : trimStart after = [] := List.dropWhile_eq_nil_iff.mpr hafter
    rw [List.nil_append, hall]
    rfl
  · rw [trimStart_append_of_head hnil h.head, trimEnd_append_of_isBlank _ hafter,
      trimEnd_of_last h.last]

theorem IsTrimmed.trim_eq {text : List Char} (h : IsTrimmed text) : trim text = text := by
  have htrim : trim ([] ++ (text ++ [])) = text :=
    trim_append (List.forall_mem_nil _) h (List.forall_mem_nil _)
  rwa [List.nil_append, List.append_nil] at htrim

/-- A blank at the end does not count. -/
theorem trim_concat {c : Char} (h : isBlank c = true) (text : List Char) :
    trim (text ++ [c]) = trim text := by
  rw [trim, trimStart, List.dropWhile_append]
  by_cases hall : (text.dropWhile isBlank).isEmpty = true
  · have hnil : trimStart text = [] := List.isEmpty_iff.1 hall
    have hc : [c].dropWhile isBlank = [] := by simp [h]
    rw [if_pos hall, hc, trim, hnil]
  · rw [if_neg hall, trimEnd_append_of_isBlank _ (by simpa using h)]
    rfl

/-- Only blanks are trimmed to nothing. -/
theorem trim_eq_nil_iff {text : List Char} : trim text = [] ↔ ∀ c ∈ text, isBlank c = true := by
  have hend : ∀ {rest : List Char}, trimEnd rest = [] ↔ ∀ c ∈ rest, isBlank c = true := by
    intro rest
    rw [trimEnd, List.reverse_eq_nil_iff, List.dropWhile_eq_nil_iff]
    simp only [List.mem_reverse]
  rw [trim, hend]
  constructor
  · intro h
    cases hrest : trimStart text with
    | nil => exact List.dropWhile_eq_nil_iff.1 hrest
    | cons c rest =>
      have hblank := h c (hrest ▸ List.mem_cons_self)
      have hhead := List.head?_dropWhile_not isBlank text
      rw [← trimStart, hrest] at hhead
      have hletter : isBlank c = false := hhead
      rw [hblank] at hletter
      cases hletter
  · intro h c hc
    exact h c ((List.dropWhile_suffix _).mem hc)

/-- A line is read up to its end; a carriage return before a line feed belongs to the end. -/
theorem lines_append_lineEnd {line lineEnd : List Char} (plain : '\n' ∉ line)
    (h : IsLineEnd lineEnd) (rest : List Char) :
    ∃ first, lines (line ++ (lineEnd ++ rest)) = first :: lines rest ∧
      (first = line ∨ line = first ++ ['\r']) := by
  induction line with
  | nil =>
    cases h with
    | lineFeed => exact ⟨[], lines_newline rest, .inl rfl⟩
    | carriageReturn => exact ⟨[], lines.eq_3 rest, .inl rfl⟩
  | cons c tail ih =>
    have hc : c ≠ '\n' := fun heq => plain (heq ▸ List.mem_cons_self)
    have htail : '\n' ∉ tail := fun hmem => plain (List.mem_cons_of_mem c hmem)
    by_cases hreturn : c = '\r' ∧ ∃ others, tail ++ (lineEnd ++ rest) = '\n' :: others
    · obtain ⟨rfl, others, hothers⟩ := hreturn
      -- The carriage return is the last character of the line, since the line has no line feed.
      cases tail with
      | cons d tail =>
        obtain rfl := (List.cons.inj hothers).1
        exact absurd List.mem_cons_self htail
      | nil =>
        cases h with
        | lineFeed => exact ⟨[], lines.eq_3 rest, .inr rfl⟩
        | carriageReturn => exact absurd (List.cons.inj hothers).1 (by decide)
    · obtain ⟨first, hfirst, hcases⟩ := ih htail
      refine ⟨c :: first, ?_, ?_⟩
      · rw [List.cons_append, lines.eq_4, hfirst]
        · exact hc
        · intro others heq hothers
          exact hreturn ⟨heq, others, hothers⟩
      · exact hcases.imp (congrArg (c :: ·)) (congrArg (c :: ·))

theorem trim_first_line {line lineEnd : List Char} (plain : '\n' ∉ line) (h : IsLineEnd lineEnd)
    (rest : List Char) :
    ∃ first, lines (line ++ (lineEnd ++ rest)) = first :: lines rest ∧ trim first = trim line := by
  obtain ⟨first, hlines, rfl | rfl⟩ := lines_append_lineEnd plain h rest
  · exact ⟨first, hlines, rfl⟩
  · exact ⟨first, hlines, (trim_concat (by decide) first).symm⟩

/-- The lines of a text have no characters but those of the text. -/
theorem mem_of_mem_lines {text line : List Char} (hline : line ∈ lines text) {c : Char}
    (hc : c ∈ line) : c ∈ text := by
  fun_induction lines text generalizing line with
  | case1 => cases hline
  | case2 rest ih =>
    rcases List.mem_cons.1 hline with rfl | hline
    · cases hc
    · exact List.mem_cons_of_mem _ (ih hline hc)
  | case3 rest ih =>
    rcases List.mem_cons.1 hline with rfl | hline
    · cases hc
    · exact List.mem_cons_of_mem _ (List.mem_cons_of_mem _ (ih hline hc))
  | case4 d rest _ _ hlines ih =>
    obtain rfl := List.mem_singleton.1 hline
    exact List.mem_singleton.1 hc ▸ List.mem_cons_self
  | case5 d rest _ _ first others hlines ih =>
    rw [hlines] at ih
    rcases List.mem_cons.1 hline with rfl | hline
    · rcases List.mem_cons.1 hc with rfl | hc
      · exact List.mem_cons_self
      · exact List.mem_cons_of_mem _ (ih List.mem_cons_self hc)
    · exact List.mem_cons_of_mem _ (ih (List.mem_cons_of_mem _ hline) hc)

end Turnery.Text
