/-!
# Lines

A line ends at a line feed or at a carriage return followed by a line feed; neither belongs to the
line. A carriage return elsewhere is an ordinary character. The last line needs no line feed, and
there is no empty line after the last line feed.
-/

namespace Turnery.Text

/-- The lines of a text, without their ends. -/
def lines : List Char → List (List Char)
  | [] => []
  | '\n' :: rest => [] :: lines rest
  | '\r' :: '\n' :: rest => [] :: lines rest
  | c :: rest =>
    match lines rest with
    | [] => [[c]]
    | line :: others => (c :: line) :: others

/-- The text that has the given lines, each ended by a line feed. -/
def unlines (ls : List (List Char)) : List Char :=
  ls.flatMap (· ++ ['\n'])

theorem lines_newline (rest : List Char) : lines ('\n' :: rest) = [] :: lines rest := by
  simp [lines]

/-- A line without line ends, a line feed and a rest read as that line before the rest's lines. -/
theorem lines_append_newline {line : List Char} (plain : '\n' ∉ line)
    (open_end : line.getLast? ≠ some '\r') (rest : List Char) :
    lines (line ++ '\n' :: rest) = line :: lines rest := by
  induction line with
  | nil => simp [lines]
  | cons c tail ih =>
    have hc : c ≠ '\n' := fun h => plain (by simp [h])
    have htail : '\n' ∉ tail := fun h => plain (by simp [h])
    have hend : tail.getLast? ≠ some '\r' := by
      intro h
      apply open_end
      cases tail with
      | nil => simp at h
      | cons d t => simpa using h
    rw [List.cons_append, lines.eq_4]
    · rw [ih htail hend]
    · intro h
      exact hc h
    · rintro r rfl hr
      cases tail with
      | nil => exact open_end rfl
      | cons d t =>
        simp only [List.cons_append, List.cons.injEq] at hr
        exact htail (by simp [hr.1])

/-- Lines without line ends are read back as they were written. -/
theorem lines_unlines {ls : List (List Char)}
    (plain : ∀ line ∈ ls, '\n' ∉ line ∧ line.getLast? ≠ some '\r') :
    lines (unlines ls) = ls := by
  induction ls with
  | nil => rfl
  | cons line rest ih =>
    obtain ⟨hline, hend⟩ := plain line (by simp)
    have hrest : lines (unlines rest) = rest := ih fun l hl => plain l (by simp [hl])
    rw [unlines, List.flatMap_cons, ← unlines, List.append_assoc, List.singleton_append,
      lines_append_newline hline hend, hrest]

end Turnery.Text
