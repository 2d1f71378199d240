import Mathlib.Data.List.Induction
import Mathlib.Logic.Relation
import Turnery.Gcode.Waypoint
import Turnery.Proofs.Text.Decimal
import Turnery.Proofs.Text.Trim

/-!
# Motion lines

The path of a program is told by its motion lines alone: each reaches one waypoint, and a coordinate
is what the latest motion line with a word for its axis says. What a motion line is and which word
of it counts is said here without the reader; `path_motionLines` says that the reader finds just
that in ASCII text, and that lines which are no motion, comments and the case of letters have no
influence.
-/

namespace Turnery.Gcode.Waypoint

open Text (isBlank isDecimalDigit trimStart takeDecimal? IsAscii IsSigned IsLongestDecimal)

/-- The command of a line is the line in upper case up to its first comment mark. -/
structure IsCommandOf (line command : List Char) : Prop where
  cut : ∃ comment, line.map Char.toUpper = command ++ comment ∧ ∀ c ∈ comment.head?,
    c = ';' ∨ c = '('
  plain : ∀ c ∈ command, c ≠ ';' ∧ c ≠ '('

/-- The numbers that select a motion. -/
def motionCodes : List (List Char) :=
  [['0'], ['1'], ['0', '0'], ['0', '1']]

/-- The command of the line is blanks, the letter, one of the numbers, and nothing or no further
digit. -/
def IsMotionLine (line : List Char) : Prop :=
  ∃ blanks code rest, IsCommandOf line (blanks ++ 'G' :: (code ++ rest)) ∧
    (∀ b ∈ blanks, isBlank b = true) ∧
    code ∈ motionCodes ∧ ∀ c ∈ rest.head?, isDecimalDigit c = false

/-- The text is blanks and a decimal, of which the word is the longest. -/
def IsWordBehind (word text : List Char) : Prop :=
  ∃ blanks rest, text = blanks ++ rest ∧ (∀ b ∈ blanks, isBlank b = true) ∧
    IsLongestDecimal word rest

/-- The word stands behind the first letter of the axis that has one behind it. -/
def IsWordOf (axis : Char) (word command : List Char) : Prop :=
  ∃ front behind, command = front ++ axis :: behind ∧ IsWordBehind word behind ∧
    ∀ earlier later, front = earlier ++ axis :: later → ∀ other,
      ¬IsWordBehind other (later ++ axis :: behind)

def Gives (axis : Char) (line word : List Char) : Prop :=
  ∃ command, IsCommandOf line command ∧ IsWordOf axis word command

/-- The coordinate behind some lines: the number of the latest word for the axis, or zero where
there is none. -/
def InForce (axis : Char) (lines : List (List Char)) (x : Float) : Prop :=
  (∃ earlier line later word, lines = earlier ++ line :: later ∧ Gives axis line word ∧
    Number.float? word = some x ∧ ∀ other ∈ later, ∀ word, ¬Gives axis other word) ∨
  ((∀ line ∈ lines, ∀ word, ¬Gives axis line word) ∧ x = 0)

/-- A change of a program that leaves its motions as they are: a line that is no motion comes or
goes, a comment is appended to a line, or letters change their case. -/
inductive Edit : List (List Char) → List (List Char) → Prop where
  | insert {line : List Char} (still : ¬IsMotionLine line) (before after : List (List Char)) :
    Edit (before ++ after) (before ++ line :: after)
  | delete {line : List Char} (still : ¬IsMotionLine line) (before after : List (List Char)) :
    Edit (before ++ line :: after) (before ++ after)
  | comment {mark : Char} (isMark : mark = ';' ∨ mark = '(') (line remark : List Char)
    (before after : List (List Char)) :
    Edit (before ++ line :: after) (before ++ (line ++ mark :: remark) :: after)
  | recase {line other : List Char} (same : line.map Char.toUpper = other.map Char.toUpper)
    (before after : List (List Char)) : Edit (before ++ line :: after) (before ++ other :: after)

theorem isCommandOf_command (line : List Char) : IsCommandOf line (command line) where
  cut := by
    refine ⟨(line.map Char.toUpper).dropWhile fun c => c != ';' && c != '(', ?_, ?_⟩
    · exact List.takeWhile_append_dropWhile.symm
    · intro c hc
      have hhead := List.head?_dropWhile_not (fun c => c != ';' && c != '(') (line.map Char.toUpper)
      rw [hc] at hhead
      simpa [imp_iff_not_or] using hhead
  plain c hc := by simpa using List.mem_takeWhile_imp hc

theorem IsCommandOf.eq_command {line text : List Char} (h : IsCommandOf line text) :
    text = command line := by
  obtain ⟨comment, hline, hmark⟩ := h.cut
  have hplain : ∀ c ∈ text, (c != ';' && c != '(') = true := fun c hc => by simpa using h.plain c hc
  have hcomment : (comment.takeWhile fun c => c != ';' && c != '(') = [] := by
    cases comment with
    | nil => rfl
    | cons c comment =>
      apply List.takeWhile_cons_of_neg
      rcases hmark c rfl with rfl | rfl <;> decide
  rw [command, hline, List.takeWhile_append_of_pos hplain, hcomment, List.append_nil]

/-- A comment is not part of the command. -/
theorem command_append_comment {mark : Char} (h : mark = ';' ∨ mark = '(')
    (line remark : List Char) :
    command (line ++ mark :: remark) = command line := by
  obtain ⟨comment, hline, hmark⟩ := (isCommandOf_command line).cut
  symm
  refine IsCommandOf.eq_command ⟨⟨comment ++ (mark :: remark).map Char.toUpper, ?_, ?_⟩,
    (isCommandOf_command line).plain⟩
  · rw [List.map_append, hline, List.append_assoc]
  · intro c hc
    cases comment with
    | nil =>
      obtain rfl := Option.some.inj hc
      rcases h with rfl | rfl <;> decide
    | cons d comment => exact hmark c hc

theorem isAscii_command {line : List Char} (ascii : IsAscii line) : IsAscii (command line) := by
  have hupper : ∀ n < 128, (Char.ofNat n).toUpper.toNat < 128 := by decide +kernel
  intro c hc
  obtain ⟨d, hd, rfl⟩ := List.mem_map.1 ((List.takeWhile_prefix _).mem hc)
  have := hupper d.toNat (ascii d hd)
  rwa [Char.ofNat_toNat] at this

theorem endsNumber_iff {rest : List Char} :
    endsNumber rest = true ↔ ∀ c ∈ rest.head?, isDecimalDigit c = false := by
  cases rest with
  | nil => simp [endsNumber]
  | cons c rest => simp [endsNumber]

theorem selectsMotion_iff {text : List Char} :
    selectsMotion text = true ↔
      ∃ code rest, text = code ++ rest ∧ code ∈ motionCodes ∧ ∀ c ∈ rest.head?,
        isDecimalDigit c = false := by
  constructor
  · intro h
    unfold selectsMotion at h
    split at h
    · exact ⟨['0', '0'], _, rfl, by decide, endsNumber_iff.1 h⟩
    · exact ⟨['0', '1'], _, rfl, by decide, endsNumber_iff.1 h⟩
    · exact ⟨['0'], _, rfl, by decide, endsNumber_iff.1 h⟩
    · exact ⟨['1'], _, rfl, by decide, endsNumber_iff.1 h⟩
    · cases h
  · rintro ⟨code, rest, rfl, hcode, hrest⟩
    have hends := endsNumber_iff.2 hrest
    simp only [motionCodes, List.mem_cons, List.not_mem_nil, or_false] at hcode
    rcases hcode with rfl | rfl | rfl | rfl
    · -- Behind a single zero there is neither a second zero nor a one.
      cases rest with
      | nil => rfl
      | cons c rest =>
        have hdigit := hrest c rfl
        rw [List.singleton_append, selectsMotion.eq_3]
        · exact hends
        · rintro tail ⟨⟩
          exact absurd hdigit (by decide)
        · rintro tail ⟨⟩
          exact absurd hdigit (by decide)
    · exact hends
    · exact hends
    · exact hends

theorem isMotionLine_iff {line : List Char} :
    IsMotionLine line ↔ isMotion (command line) = true := by
  have hletter : isBlank 'G' = false := by decide
  constructor
  · rintro ⟨blanks, code, rest, hcommand, hblanks, hcode, hrest⟩
    rw [← hcommand.eq_command, isMotion, Text.trimStart_append_of_isBlank hblanks,
      Text.trimStart_cons_of_not_isBlank hletter]
    exact selectsMotion_iff.2 ⟨code, rest, rfl, hcode, hrest⟩
  · intro h
    unfold isMotion at h
    split at h
    · rename_i rest htrim
      obtain ⟨code, rest, rfl, hcode, hrest⟩ := selectsMotion_iff.1 h
      obtain ⟨blanks, hblanks, hsplit⟩ := Text.exists_blanks_append_trimStart (command line)
      rw [htrim] at hsplit
      exact ⟨blanks, code, rest, hsplit ▸ isCommandOf_command line, hblanks, hcode, hrest⟩
    · cases h

instance (line : List Char) : Decidable (IsMotionLine line) :=
  decidable_of_iff' _ isMotionLine_iff

theorem isBlank_of_mem_head? {word : List Char} (h : IsSigned word) :
    ∀ c ∈ word.head?, isBlank c = false := by
  obtain ⟨first, tail, rfl, hfirst⟩ := h.exists_cons
  intro c hc
  obtain rfl := Option.some.inj hc
  rcases hfirst with hdigit | rfl | rfl | rfl
  · exact Text.isBlank_eq_false_of_isDigit hdigit
  · decide
  · decide
  · decide

/-- In ASCII text the reader takes the word behind a letter. -/
theorem takeDecimal?_trimStart_iff {word text : List Char} (ascii : IsAscii text) :
    (∃ rest, takeDecimal? (trimStart text) = some (word, rest)) ↔ IsWordBehind word text := by
  have htrimmed : IsAscii (trimStart text) := Text.isAscii_of_suffix ascii (List.dropWhile_suffix _)
  constructor
  · rintro ⟨rest, htake⟩
    obtain ⟨-, hlongest⟩ := (Text.takeDecimal?_eq_some_iff htrimmed).1 htake
    obtain ⟨blanks, hblanks, hsplit⟩ := Text.exists_blanks_append_trimStart text
    exact ⟨blanks, trimStart text, hsplit, hblanks, hlongest⟩
  · rintro ⟨blanks, rest, rfl, hblanks, hlongest⟩
    obtain ⟨more, hrest⟩ := hlongest.isPrefix
    have htrim : trimStart (blanks ++ rest) = rest := by
      rw [Text.trimStart_append_of_isBlank hblanks, ← hrest]
      exact Text.trimStart_append_of_head hlongest.isSigned.ne_nil
        (isBlank_of_mem_head? hlongest.isSigned) more
    rw [htrim] at htrimmed ⊢
    exact ⟨more, (Text.takeDecimal?_eq_some_iff htrimmed).2 ⟨hrest.symm, hlongest⟩⟩

/-- The first letter of a command with a word behind it is its first character, or the first such
letter of the rest. -/
theorem isWordOf_cons {axis c : Char} {word rest : List Char} :
    IsWordOf axis word (c :: rest) ↔
      (c = axis ∧ IsWordBehind word rest) ∨
      ((c = axis → ∀ other, ¬IsWordBehind other rest) ∧ IsWordOf axis word rest) := by
  constructor
  · rintro ⟨front, behind, hcommand, hword, hfirst⟩
    cases front with
    | nil =>
      obtain ⟨rfl, rfl⟩ := List.cons.inj hcommand
      exact .inl ⟨rfl, hword⟩
    | cons d front =>
      obtain ⟨rfl, rfl⟩ := List.cons.inj hcommand
      refine .inr ⟨?_, front, behind, rfl, hword, ?_⟩
      · rintro rfl
        exact hfirst [] front rfl
      · intro earlier later hfront
        exact hfirst (c :: earlier) later (congrArg (c :: ·) hfront)
  · rintro (⟨rfl, hword⟩ | ⟨hnone, front, behind, rfl, hword, hfirst⟩)
    · exact ⟨[], rest, rfl, hword, fun earlier later hfront => by simp at hfront⟩
    · refine ⟨c :: front, behind, rfl, hword, ?_⟩
      intro earlier later hfront
      cases earlier with
      | nil =>
        obtain ⟨rfl, rfl⟩ := List.cons.inj hfront
        exact hnone rfl
      | cons d earlier => exact hfirst earlier later (List.cons.inj hfront).2

/-- In ASCII text the reader finds the word of the axis. -/
theorem axisLexeme?_eq_some_iff {axis : Char} {word command : List Char} (ascii : IsAscii command) :
    axisLexeme? axis command = some word ↔ IsWordOf axis word command := by
  induction command with
  | nil =>
    constructor
    · intro h
      cases h
    · rintro ⟨front, behind, hcommand, -⟩
      simp at hcommand
  | cons c rest ih =>
    have hrest : IsAscii rest := Text.isAscii_of_suffix ascii (List.suffix_cons c rest)
    have hbehind : ∀ other, (∃ more, takeDecimal? (trimStart rest) = some (other, more)) ↔
        IsWordBehind other rest :=
      fun _ => takeDecimal?_trimStart_iff hrest
    rw [isWordOf_cons, axisLexeme?, ← ih hrest]
    by_cases hc : c = axis
    · rw [beq_iff_eq.2 hc, if_pos rfl]
      cases htake : takeDecimal? (trimStart rest) with
      | none =>
        have hnone : ∀ other, ¬IsWordBehind other rest := by
          intro other hother
          obtain ⟨more, hmore⟩ := (hbehind other).2 hother
          rw [htake] at hmore
          cases hmore
        simp [hnone]
      | some taken =>
        have hword : ∀ other, IsWordBehind other rest ↔ taken.1 = other := by
          intro other
          rw [← hbehind other, htake]
          constructor
          · rintro ⟨more, hmore⟩
            exact congrArg Prod.fst (Option.some.inj hmore)
          · rintro rfl
            exact ⟨taken.2, rfl⟩
        simp [hc, hword]
    · simp [hc]

/-- A line in ASCII text gives a number for the axis, or it has no word for it. -/
theorem gives_or_not {line : List Char} (ascii : IsAscii line) (axis : Char) :
    (∃ word x, Gives axis line word ∧ Number.float? word = some x ∧
      axisValue? axis (command line) = some x) ∨
      ((∀ word, ¬Gives axis line word) ∧ axisValue? axis (command line) = none) := by
  have hlexeme : ∀ word, axisLexeme? axis (command line) = some word ↔
      IsWordOf axis word (command line) :=
    fun _ => axisLexeme?_eq_some_iff (isAscii_command ascii)
  rw [axisValue?]
  cases hfound : axisLexeme? axis (command line) with
  | none =>
    refine .inr ⟨?_, rfl⟩
    rintro word ⟨text, hcommand, hword⟩
    rw [hcommand.eq_command, ← hlexeme word, hfound] at hword
    cases hword
  | some word =>
    have hword := (hlexeme word).1 hfound
    obtain ⟨front, behind, -, ⟨blanks, rest, -, -, hlongest⟩, -⟩ := id hword
    obtain ⟨x, hx⟩ := Text.exists_float?_of_isSigned hlongest.isSigned
    exact .inl ⟨word, x, ⟨command line, isCommandOf_command line, hword⟩, hx, hx⟩

/-- A line more takes a coordinate to its own number, or leaves it in force. -/
theorem InForce.concat {axis : Char} {lines : List (List Char)} {x : Float}
    (h : InForce axis lines x) {line : List Char} (ascii : IsAscii line) :
    InForce axis (lines ++ [line]) ((axisValue? axis (command line)).getD x) := by
  obtain ⟨word, y, hgives, hy, hvalue⟩ | ⟨hnone, hvalue⟩ := gives_or_not ascii axis
  · rw [hvalue]
    exact .inl ⟨lines, line, [], word, rfl, hgives, hy, List.forall_mem_nil _⟩
  · rw [hvalue]
    rcases h with ⟨earlier, latest, later, word, rfl, hgives, hx, hlater⟩ | ⟨hall, rfl⟩
    · refine .inl ⟨earlier, latest, later ++ [line], word, by simp, hgives, hx, ?_⟩
      rw [List.forall_mem_append, List.forall_mem_singleton]
      exact ⟨hlater, hnone⟩
    · refine .inr ⟨?_, rfl⟩
      rw [List.forall_mem_append, List.forall_mem_singleton]
      exact ⟨hall, hnone⟩

def positionBehind (start : Waypoint) (lines : List (List Char)) : Waypoint :=
  lines.foldl (fun position line => position.move (command line)) start

/-- Both coordinates are in force behind any lines, each for itself. -/
theorem inForce_positionBehind {lines : List (List Char)} (ascii : ∀ line ∈ lines, IsAscii line) :
    InForce 'X' lines (positionBehind origin lines).x ∧
      InForce 'Z' lines (positionBehind origin lines).z := by
  induction lines using List.reverseRecOn with
  | nil => exact ⟨.inr ⟨List.forall_mem_nil _, rfl⟩, .inr ⟨List.forall_mem_nil _, rfl⟩⟩
  | append_singleton lines line ih =>
    rw [List.forall_mem_append, List.forall_mem_singleton] at ascii
    obtain ⟨hx, hz⟩ := ih ascii.1
    rw [positionBehind, List.foldl_append]
    exact ⟨hx.concat ascii.2, hz.concat ascii.2⟩

/-- The motion lines among some lines, in order. -/
def motionLines (lines : List (List Char)) : List (List Char) :=
  lines.filter fun line => decide (IsMotionLine line)

theorem pathFrom_cons_of_motion {line : List Char} (h : IsMotionLine line) (position : Waypoint)
    (rest : List (List Char)) :
    pathFrom position (line :: rest) =
      position.move (command line) :: pathFrom (position.move (command line)) rest := by
  rw [pathFrom]
  exact if_pos (isMotionLine_iff.1 h)

theorem pathFrom_cons_of_not_motion {line : List Char} (h : ¬IsMotionLine line)
    (position : Waypoint) (rest : List (List Char)) :
    pathFrom position (line :: rest) = pathFrom position rest := by
  rw [pathFrom]
  exact if_neg fun hmotion => h (isMotionLine_iff.2 hmotion)

/-- Only motion lines count. -/
theorem pathFrom_motionLines (position : Waypoint) (lines : List (List Char)) :
    pathFrom position (motionLines lines) = pathFrom position lines := by
  induction lines generalizing position with
  | nil => rfl
  | cons line rest ih =>
    rw [motionLines, List.filter_cons]
    by_cases h : IsMotionLine line
    · rw [if_pos (decide_eq_true h), pathFrom_cons_of_motion h, pathFrom_cons_of_motion h]
      exact congrArg _ (ih _)
    · rw [if_neg (by simpa using h), pathFrom_cons_of_not_motion h]
      exact ih position

/-- Each motion line reaches the position behind it. -/
theorem getElem?_pathFrom {lines : List (List Char)} (h : ∀ line ∈ lines, IsMotionLine line)
    (position : Waypoint) (i : Nat) :
    (pathFrom position lines)[i]? = lines[i]?.map fun _ =>
      positionBehind position (lines.take (i + 1)) := by
  induction lines generalizing position i with
  | nil => rfl
  | cons line rest ih =>
    obtain ⟨hline, hrest⟩ := List.forall_mem_cons.1 h
    rw [pathFrom_cons_of_motion hline]
    cases i with
    | zero => rfl
    | succ i =>
      rw [List.getElem?_cons_succ, List.getElem?_cons_succ, ih hrest]
      rfl

theorem length_pathFrom {lines : List (List Char)} (h : ∀ line ∈ lines, IsMotionLine line)
    (position : Waypoint) :
    (pathFrom position lines).length = lines.length := by
  induction lines generalizing position with
  | nil => rfl
  | cons line rest ih =>
    obtain ⟨hline, hrest⟩ := List.forall_mem_cons.1 h
    rw [pathFrom_cons_of_motion hline, List.length_cons, List.length_cons, ih hrest]

/-- Of a motion line only the command counts. -/
theorem pathFrom_cons_congr {line other : List Char} (h : command line = command other)
    (position : Waypoint) (rest : List (List Char)) :
    pathFrom position (line :: rest) = pathFrom position (other :: rest) := by
  rw [pathFrom, pathFrom, h]

/-- Lines in front that are the same lead on from the same position. -/
theorem pathFrom_append_congr {lines others : List (List Char)}
    (h : ∀ position, pathFrom position lines = pathFrom position others) (before : List (List Char))
    (position : Waypoint) :
    pathFrom position (before ++ lines) = pathFrom position (before ++ others) := by
  induction before generalizing position with
  | nil => exact h position
  | cons line before ih =>
    rw [List.cons_append, List.cons_append, pathFrom, pathFrom]
    dsimp only
    rw [ih, ih]

theorem Edit.pathFrom_eq {lines others : List (List Char)} (h : Edit lines others)
    (position : Waypoint) :
    pathFrom position others = pathFrom position lines := by
  cases h with
  | insert still before after =>
    exact pathFrom_append_congr (fun position => pathFrom_cons_of_not_motion still position after)
      before position
  | delete still before after =>
    exact pathFrom_append_congr (fun position =>
      (pathFrom_cons_of_not_motion still position after).symm) before position
  | comment isMark line remark before after =>
    have hcommand := command_append_comment isMark line remark
    exact pathFrom_append_congr (fun position => pathFrom_cons_congr hcommand position after) before
      position
  | @recase line other same before after =>
    have hcommand : command other = command line := by rw [command, command, same]
    exact pathFrom_append_congr (fun position => pathFrom_cons_congr hcommand position after) before
      position

theorem pathFrom_eq_of_edits {lines others : List (List Char)}
    (h : Relation.ReflTransGen Edit lines others) (position : Waypoint) :
    pathFrom position others = pathFrom position lines := by
  induction h with
  | refl => rfl
  | tail _ edit ih => exact (edit.pathFrom_eq position).trans ih

/-- An ASCII program reaches one waypoint for each motion line, in order; each coordinate is the one
that the motion lines up to there have put in force. Any changes that leave the motion lines as they
are leave the path as it is. -/
theorem path_motionLines {program : String} (ascii : IsAscii program.toList) :
    (path program).length = (motionLines (Text.lines program.toList)).length ∧
    (∀ i waypoint, (path program)[i]? = some waypoint →
      InForce 'X' ((motionLines (Text.lines program.toList)).take (i + 1)) waypoint.x ∧
      InForce 'Z' ((motionLines (Text.lines program.toList)).take (i + 1)) waypoint.z) ∧
    ∀ other : String,
      Relation.ReflTransGen Edit (Text.lines program.toList) (Text.lines other.toList) →
        path other = path program := by
  have hmotion : ∀ line ∈ motionLines (Text.lines program.toList), IsMotionLine line := by
    intro line hline
    exact of_decide_eq_true (List.mem_filter.1 hline).2
  have hascii : ∀ line ∈ motionLines (Text.lines program.toList), IsAscii line := by
    intro line hline c hc
    exact ascii c (Text.mem_of_mem_lines (List.mem_filter.1 hline).1 hc)
  have hpath : path program = pathFrom origin (motionLines (Text.lines program.toList)) :=
    (pathFrom_motionLines origin _).symm
  refine ⟨?_, ?_, ?_⟩
  · rw [hpath, length_pathFrom hmotion]
  · intro i waypoint hwaypoint
    rw [hpath, getElem?_pathFrom hmotion] at hwaypoint
    obtain ⟨line, -, rfl⟩ := Option.map_eq_some_iff.1 hwaypoint
    exact inForce_positionBehind fun line hline => hascii line (List.mem_of_mem_take hline)
  · intro other hedits
    exact pathFrom_eq_of_edits hedits origin

/-- Of the five lines three are motions; the third of them has an `X` without a number. The line of
the spindle goes and a comment comes. -/
theorem path_motionLines_mixed :
    let program := "g01 x .5 (feed)\nM3 X9\n G00Z-2;X7\nG010 X1\nG1 X Z3 X+4.\n"
    let other := "g01 x .5 (feed)\n G00Z-2;X7\nG010 X1\nG1 X Z3 X+4.;X8\n"
    IsAscii program.toList ∧ (path program).length = 3 ∧
      InForce 'X' ((motionLines (Text.lines program.toList)).take 3) 4 ∧
      InForce 'Z' ((motionLines (Text.lines program.toList)).take 2) (-2) ∧
          path other = path program := by
  intro program other
  have ascii : IsAscii program.toList := by decide
  obtain ⟨hlength, hcoordinates, hedits⟩ := path_motionLines ascii
  have hsecond : (path program)[1]? = some ⟨0.5, -2⟩ := by decide +kernel
  have hthird : (path program)[2]? = some ⟨4, 3⟩ := by decide +kernel
  have hthree : (motionLines (Text.lines program.toList)).length = 3 := by decide +kernel
  have hstill : ¬IsMotionLine "M3 X9".toList := by decide +kernel
  have hlines : Text.lines program.toList = ["g01 x .5 (feed)".toList] ++ "M3 X9".toList ::
      [" G00Z-2;X7".toList, "G010 X1".toList, "G1 X Z3 X+4.".toList] := by decide +kernel
  have hothers : Text.lines other.toList =
      ["g01 x .5 (feed)".toList, " G00Z-2;X7".toList, "G010 X1".toList] ++
        ("G1 X Z3 X+4.".toList ++ ';' :: "X8".toList) :: [] := by decide +kernel
  refine ⟨ascii, hlength.trans hthree, (hcoordinates 2 _ hthird).1, (hcoordinates 1 _ hsecond).2,
    hedits other ?_⟩
  rw [hlines, hothers]
  exact (Relation.ReflTransGen.single (.delete hstill _ _)).tail (.comment (.inl rfl) _ _ _ [])

end Turnery.Gcode.Waypoint
