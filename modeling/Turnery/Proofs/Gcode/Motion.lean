import Turnery.Gcode.Turning
import Turnery.Gcode.Waypoint
import Turnery.Proofs.Number.DecimalShape
import Turnery.Proofs.Text.Trim

/-!
# What the reader of waypoints makes of written lines

Lines are written as text and read back from it. `pathFrom_text` says for each kind of line what
reading its text does to the position; the word of a number that is not finite does nothing. Where
all numbers are finite, `pathFrom_map_text` lifts this to lists of lines: the reader follows exactly
the moves that `Line.waypoint?` assigns to the lines, so that the rest of the theory need not look
at text any more.
-/

namespace Turnery.Gcode

open Number (IsDecimal Stops)
open Text (trimStart trimStart_cons_of_not_isBlank takeDecimal? isBlank isBlank_eq_false_of_isDigit
  isDecimalDigit)

/-- The double that a number word denotes. -/
def denoted (word : String) : Float :=
  (Number.float? word.toList).getD 0

theorem isDecimal_number {x : Float} (h : x.isFinite = true) : IsDecimal (number x).toList :=
  Number.isDecimal_trimmedDecimal 4 h

/-- The word of a finite number is a numeral. -/
theorem float?_number {x : Float} (h : x.isFinite = true) :
    Number.float? (number x).toList = some (denoted (number x)) := by
  obtain ⟨value, hvalue⟩ := Number.exists_float?_of_isDecimal (isDecimal_number h)
  rw [denoted, hvalue, Option.getD_some]

theorem number_of_not_isFinite {x : Float} (h : x.isFinite = false) :
    number x = "NaN" ∨ number x = "inf" ∨ number x = "-inf" := by
  unfold number Number.trimmedDecimal
  split
  · exact .inl rfl
  · rename_i negative _
    cases negative with
    | false => exact .inr (.inl rfl)
    | true => exact .inr (.inr rfl)
  · rename_i hvalue
    have hfinite := Number.Binary64.isFinite_iff.2 ⟨_, _, _, hvalue⟩
    rw [h] at hfinite
    cases hfinite

/-- What is read from the word of a number; nothing where the number is not finite. -/
def heeded (x : Float) : Option Float :=
  if x.isFinite then some (denoted (number x)) else none

theorem heeded_of_isFinite {x : Float} (h : x.isFinite = true) :
    heeded x = some (denoted (number x)) :=
  if_pos h

/-- Where the text of a line takes the tool, if it moves it. -/
def Line.reached? (position : Waypoint) : Line → Option Waypoint
  | .rapidHeight z => some ⟨position.x, (heeded z).getD position.z⟩
  | .rapid target => some ⟨(heeded target.x).getD position.x, (heeded target.y).getD position.z⟩
  | .cut target _ => some ⟨(heeded target.x).getD position.x, (heeded target.y).getD position.z⟩
  | _ => none

/-- Where a line with finite numbers takes the tool, if it moves it. -/
def Line.waypoint? (position : Waypoint) : Line → Option Waypoint
  | .rapidHeight z => some ⟨position.x, denoted (number z)⟩
  | .rapid target => some ⟨denoted (number target.x), denoted (number target.y)⟩
  | .cut target _ => some ⟨denoted (number target.x), denoted (number target.y)⟩
  | _ => none

/-- The positions that a line moves to are finite. -/
def Line.HasFiniteTarget : Line → Prop
  | .rapidHeight z => z.isFinite = true
  | .rapid target => target.isFinite = true
  | .cut target _ => target.isFinite = true
  | _ => True

theorem Line.reached?_of_hasFiniteTarget (position : Waypoint) {line : Line}
    (h : line.HasFiniteTarget) :
    line.reached? position = line.waypoint? position := by
  cases line with
  | rapidHeight z => rw [Line.reached?, heeded_of_isFinite h, Line.waypoint?, Option.getD_some]
  | rapid target | cut target feed =>
    obtain ⟨hx, hy⟩ := Bool.and_eq_true_iff.1 h
    rw [Line.reached?, heeded_of_isFinite hx, heeded_of_isFinite hy, Line.waypoint?,
      Option.getD_some, Option.getD_some]
  | _ => rfl

/-- The waypoints of lines, from a position on. -/
def trail (position : Waypoint) : List Line → List Waypoint
  | [] => []
  | line :: rest =>
    match line.waypoint? position with
    | none => trail position rest
    | some next => next :: trail next rest

/-- Lines after others go on from the last waypoint of those. -/
theorem trail_append (position : Waypoint) (front back : List Line) :
    trail position (front ++ back) =
      trail position front ++ trail ((trail position front).getLastD position) back := by
  induction front generalizing position with
  | nil => rfl
  | cons line rest ih =>
    simp only [List.cons_append, trail]
    cases line.waypoint? position with
    | none => exact ih position
    | some next =>
      simp only [List.cons_append, List.getLastD_cons]
      rw [ih next]

/-- The character stands for itself in a command. -/
def IsCommandChar (c : Char) : Prop :=
  c.toUpper = c ∧ c ≠ ';' ∧ c ≠ '('

instance (c : Char) : Decidable (IsCommandChar c) :=
  inferInstanceAs (Decidable (_ ∧ _))

theorem isCommandChar_of_isDigit {c : Char} (h : c.isDigit = true) : IsCommandChar c := by
  have hrange := Char.isDigit_iff_toNat.1 h
  refine ⟨?_, ?_, ?_⟩
  · unfold Char.toUpper
    split
    · rename_i hlower
      have hval : 97 ≤ c.val.toNat := UInt32.le_iff_toNat_le.1 hlower.1
      have : c.toNat = c.val.toNat := rfl
      have : '9'.toNat = 57 := rfl
      omega
    · rfl
  · rintro rfl
    exact absurd h (by decide)
  · rintro rfl
    exact absurd h (by decide)

/-- Every character stands for itself. -/
def IsCommandText (text : List Char) : Prop :=
  ∀ c ∈ text, IsCommandChar c

instance (text : List Char) : Decidable (IsCommandText text) :=
  List.decidableBAll IsCommandChar text

theorem isCommandText_of_isDecimal {word : List Char} (h : IsDecimal word) :
    IsCommandText word := by
  intro c hc
  rcases h.digit_or_mark hc with hd | rfl | rfl
  · exact isCommandChar_of_isDigit hd
  · decide
  · decide

theorem command_cons {c : Char} (h : IsCommandChar c) (rest : List Char) :
    Waypoint.command (c :: rest) = c :: Waypoint.command rest := by
  obtain ⟨hupper, hsemicolon, hparen⟩ := h
  simp [Waypoint.command, hupper, hsemicolon, hparen]

theorem command_append {word : List Char} (h : IsCommandText word) (rest : List Char) :
    Waypoint.command (word ++ rest) = word ++ Waypoint.command rest := by
  induction word with
  | nil => rfl
  | cons c word ih =>
    rw [List.cons_append, command_cons (h c (by simp)), ih fun d hd => h d (by simp [hd])]
    rfl

theorem trimStart_append_of_isDecimal {word : List Char} (h : IsDecimal word) (rest : List Char) :
    trimStart (word ++ rest) = word ++ rest := by
  cases h with
  | negative body => exact trimStart_cons_of_not_isBlank (by decide) _
  | unsigned body =>
    obtain ⟨d, tail, rfl, hd⟩ := body.exists_cons
    exact trimStart_cons_of_not_isBlank (isBlank_eq_false_of_isDigit hd) _

theorem axisLexeme?_append_of_not_mem {axis : Char} {front : List Char} (h : axis ∉ front)
    (rest : List Char) :
    Waypoint.axisLexeme? axis (front ++ rest) = Waypoint.axisLexeme? axis rest := by
  induction front with
  | nil => rfl
  | cons c front ih =>
    have hc : (c == axis) = false := by
      rw [beq_eq_false_iff_ne]
      rintro rfl
      exact h (by simp)
    rw [List.cons_append, Waypoint.axisLexeme?, hc]
    exact ih fun hmem => h (by simp [hmem])

theorem axisLexeme?_word (axis : Char) {word rest : List Char} (h : IsDecimal word)
    (hrest : Stops rest) : Waypoint.axisLexeme? axis (axis :: (word ++ rest)) = some word := by
  rw [Waypoint.axisLexeme?, beq_self_eq_true, if_pos rfl, trimStart_append_of_isDecimal h,
    Number.takeDecimal?_append_of_isDecimal h hrest]

theorem stops_space (rest : List Char) : Stops (' ' :: rest) := by
  simp only [Stops, List.head?_cons, Option.mem_some_iff, forall_eq']
  decide

/-- The word of a number as a command has it. -/
def capitals (x : Float) : List Char :=
  (number x).toList.map Char.toUpper

theorem capitals_of_isFinite {x : Float} (h : x.isFinite = true) :
    capitals x = (number x).toList := by
  have hword := isCommandText_of_isDecimal (isDecimal_number h)
  rw [capitals, List.map_congr_left fun c hc => (hword c hc).1, List.map_id']

theorem capitals_of_not_isFinite {x : Float} (h : x.isFinite = false) :
    capitals x = ['N', 'A', 'N'] ∨ capitals x = ['I', 'N', 'F'] ∨
      capitals x = ['-', 'I', 'N', 'F'] := by
  rcases number_of_not_isFinite h with hx | hx | hx
  · exact .inl (by rw [capitals, hx]; decide)
  · exact .inr (.inl (by rw [capitals, hx]; decide))
  · exact .inr (.inr (by rw [capitals, hx]; decide))

theorem mem_capitals {x : Float} {c : Char} (hc : c ∈ capitals x) :
    c.isDigit = true ∨ c ∈ ['.', '-', 'N', 'A', 'I', 'F'] := by
  cases hx : x.isFinite with
  | true =>
    rw [capitals_of_isFinite hx] at hc
    rcases (isDecimal_number hx).digit_or_mark hc with hd | rfl | rfl
    · exact .inl hd
    · exact .inr (by decide)
    · exact .inr (by decide)
  | false =>
    refine .inr ?_
    rcases capitals_of_not_isFinite hx with hword | hword | hword <;> rw [hword] at hc <;> grind

/-- The letter of an axis is in no word of a number. -/
theorem axis_notMem_capitals {axis : Char} (haxis : axis = 'X' ∨ axis = 'Z') (x : Float) :
    axis ∉ capitals x := by
  intro hmem
  rcases haxis with rfl | rfl
  · exact absurd (mem_capitals hmem) (by decide)
  · exact absurd (mem_capitals hmem) (by decide)

theorem command_number (x : Float) (rest : List Char) :
    Waypoint.command ((number x).toList ++ rest) = capitals x ++ Waypoint.command rest := by
  have hword : ∀ c ∈ capitals x, (c != ';' && c != '(') = true := by
    intro c hc
    rcases mem_capitals hc with hd | hmark
    · have hchar := isCommandChar_of_isDigit hd
      simpa using hchar.2
    · simp only [List.mem_cons, List.not_mem_nil, or_false] at hmark
      rcases hmark with rfl | rfl | rfl | rfl | rfl | rfl <;> rfl
  rw [Waypoint.command, List.map_append]
  exact List.takeWhile_append_of_pos hword

/-- A word without digits is no decimal. -/
theorem takeDecimal?_capitals {x : Float} (h : x.isFinite = false) (rest : List Char) :
    takeDecimal? (trimStart (capitals x ++ rest)) = none := by
  have hN : isDecimalDigit 'N' = false := by decide
  have hI : isDecimalDigit 'I' = false := by decide
  rcases capitals_of_not_isFinite h with hword | hword | hword
  · rw [hword, List.cons_append, trimStart_cons_of_not_isBlank (by decide)]
    simp [takeDecimal?, Text.takeUnsigned?, Text.takeDigits, hN]
  · rw [hword, List.cons_append, trimStart_cons_of_not_isBlank (by decide)]
    simp [takeDecimal?, Text.takeUnsigned?, Text.takeDigits, hI]
  · rw [hword, List.cons_append, trimStart_cons_of_not_isBlank (by decide)]
    simp [takeDecimal?, Text.takeUnsigned?, Text.takeDigits, hI]

theorem axisValue?_of_not_mem {axis : Char} {command : List Char} (h : axis ∉ command) :
    Waypoint.axisValue? axis command = none := by
  have := axisLexeme?_append_of_not_mem h []
  rw [List.append_nil] at this
  rw [Waypoint.axisValue?, this, Waypoint.axisLexeme?, Option.bind_none]

/-- The value of the only word of an axis. -/
theorem axisValue?_number {axis : Char} {front rest : List Char} (x : Float)
    (haxis : axis = 'X' ∨ axis = 'Z') (hfront : axis ∉ front) (hrest : axis ∉ rest)
    (hstops : Stops rest) :
    Waypoint.axisValue? axis (front ++ axis :: (capitals x ++ rest)) = heeded x := by
  rw [Waypoint.axisValue?, axisLexeme?_append_of_not_mem hfront, heeded]
  cases hx : x.isFinite with
  | true =>
    rw [capitals_of_isFinite hx, axisLexeme?_word axis (isDecimal_number hx) hstops,
      Option.bind_some, float?_number hx]
    rfl
  | false =>
    have hnone : axis ∉ capitals x ++ rest := by simp [axis_notMem_capitals haxis x, hrest]
    rw [Waypoint.axisLexeme?, beq_self_eq_true, if_pos rfl, takeDecimal?_capitals hx]
    exact axisValue?_of_not_mem hnone

theorem isMotion_cons_of_ne {c : Char} (hblank : isBlank c = false) (hc : c ≠ 'G')
    (rest : List Char) :
    Waypoint.isMotion (c :: rest) = false := by
  rw [Waypoint.isMotion, trimStart_cons_of_not_isBlank hblank]
  split
  · rename_i heq
    exact absurd (List.cons.inj heq).1 hc
  · rfl

theorem isMotion_code {code : Char} (h : code = '0' ∨ code = '1') (rest : List Char) :
    Waypoint.isMotion ('G' :: code :: ' ' :: rest) = true := by
  have hspace : isDecimalDigit ' ' = false := by decide
  rw [Waypoint.isMotion, trimStart_cons_of_not_isBlank (by decide)]
  rcases h with rfl | rfl
  · simp [Waypoint.selectsMotion, Waypoint.endsNumber, hspace]
  · simp [Waypoint.selectsMotion, Waypoint.endsNumber, hspace]

/-- A command that gives only the height keeps the abscissa. -/
theorem move_height (position : Waypoint) (z : Float) {front : List Char} (hX : 'X' ∉ front)
    (hZ : 'Z' ∉ front) :
    position.move (front ++ 'Z' :: capitals z) = ⟨position.x, (heeded z).getD position.z⟩ := by
  have hnone : Waypoint.axisValue? 'X' (front ++ 'Z' :: capitals z) = none :=
    axisValue?_of_not_mem (by simp [hX, axis_notMem_capitals (.inl rfl) z])
  have hsome := axisValue?_number z (.inr rfl) hZ List.not_mem_nil Number.stops_nil
  rw [List.append_nil] at hsome
  rw [Waypoint.move, hnone, hsome]
  rfl

/-- The words of a position, in front of a further text. -/
theorem command_positionWords (p : Point Float) (rest : List Char) :
    Waypoint.command ((positionWords p).toList ++ rest) =
      'X' :: (capitals p.x ++ ' ' :: 'Z' :: (capitals p.y ++ Waypoint.command rest)) := by
  have hshape : (positionWords p).toList ++ rest =
      'X' :: ((number p.x).toList ++ ' ' :: 'Z' :: ((number p.y).toList ++ rest)) := by
    simp [positionWords]
  rw [hshape, command_cons (by decide), command_number, command_cons (by decide),
    command_cons (by decide), command_number]

/-- A command that gives both coordinates keeps what is not finite in them. -/
theorem move_positionWords (position : Waypoint) (p : Point Float) {front rest : List Char}
    (hX : 'X' ∉ front) (hZ : 'Z' ∉ front) (hX' : 'X' ∉ rest) (hZ' : 'Z' ∉ rest)
    (hstops : Stops rest) :
    position.move (front ++ 'X' :: (capitals p.x ++ ' ' :: 'Z' :: (capitals p.y ++ rest))) =
      ⟨(heeded p.x).getD position.x, (heeded p.y).getD position.z⟩ := by
  have habscissa : Waypoint.axisValue? 'X' (front ++ 'X' :: (capitals p.x ++
      ' ' :: 'Z' :: (capitals p.y ++ rest))) = heeded p.x := by
    refine axisValue?_number p.x (.inl rfl) hX ?_ (stops_space _)
    simp [axis_notMem_capitals (.inl rfl) p.y, hX']
  have hbefore : 'Z' ∉ front ++ 'X' :: (capitals p.x ++ [' ']) := by
    simp [hZ, axis_notMem_capitals (.inr rfl) p.x]
  have hordinate := axisValue?_number p.y (.inr rfl) hbefore hZ' hstops
  simp only [List.append_assoc, List.cons_append, List.nil_append] at hordinate
  rw [Waypoint.move, habscissa, hordinate]

theorem pathFrom_of_still (position : Waypoint) {text : List Char}
    (h : Waypoint.isMotion (Waypoint.command text) = false) (rest : List (List Char)) :
    Waypoint.pathFrom position (text :: rest) = Waypoint.pathFrom position rest := by
  simp [Waypoint.pathFrom, h]

theorem pathFrom_of_motion {position next : Waypoint} {text : List Char}
    (h : Waypoint.isMotion (Waypoint.command text) = true)
    (hnext : position.move (Waypoint.command text) = next) (rest : List (List Char)) :
    Waypoint.pathFrom position (text :: rest) = next :: Waypoint.pathFrom next rest := by
  simp [Waypoint.pathFrom, h, hnext]

theorem command_rapidHeight (z : Float) :
    Waypoint.command (Line.rapidHeight z).text.toList = ['G', '0', ' '] ++ 'Z' :: capitals z := by
  have hshape : (Line.rapidHeight z).text.toList =
      ['G', '0', ' ', 'Z'] ++ ((number z).toList ++ []) := by
    simp [Line.text]
  rw [hshape, command_append (by decide), command_number]
  simp [Waypoint.command]

theorem command_rapid (target : Point Float) :
    Waypoint.command (Line.rapid target).text.toList = ['G', '0', ' '] ++
      'X' :: (capitals target.x ++ ' ' :: 'Z' :: (capitals target.y ++ [])) := by
  have hshape : (Line.rapid target).text.toList =
      ['G', '0', ' '] ++ ((positionWords target).toList ++ []) := by
    simp [Line.text]
  rw [hshape, command_append (by decide), command_positionWords]
  rfl

theorem command_cut (target : Point Float) (feed : Float) :
    Waypoint.command (Line.cut target feed).text.toList = ['G', '1', ' '] ++
      'X' :: (capitals target.x ++ ' ' :: 'Z' ::
        (capitals target.y ++ ' ' :: 'F' :: (capitals feed ++ []))) := by
  have hshape : (Line.cut target feed).text.toList =
      ['G', '1', ' '] ++ ((positionWords target).toList ++ ' ' :: 'F' ::
          ((number feed).toList ++ [])) := by
    simp [Line.text]
  rw [hshape, command_append (by decide), command_positionWords, command_cons (by decide),
    command_cons (by decide), command_number]
  rfl

/-- Reading the text of a line does what `Line.reached?` says. -/
theorem pathFrom_text (position : Waypoint) (line : Line) (rest : List (List Char)) :
    Waypoint.pathFrom position (line.text.toList :: rest) =
      match line.reached? position with
      | none => Waypoint.pathFrom position rest
      | some next => next :: Waypoint.pathFrom next rest := by
  cases line with
  | remark text =>
    exact pathFrom_of_still position
      (by simp [Line.text, Waypoint.command, Waypoint.isMotion, Text.trimStart]) rest
  | unitMode units => cases units <;> exact pathFrom_of_still position (by decide) rest
  | absoluteMode => exact pathFrom_of_still position (by decide) rest
  | toolSelect tool =>
    refine pathFrom_of_still position ?_ rest
    simp only [Line.text, Tool.word, String.toList_append]
    rw [show "T".toList = ['T'] from rfl, List.cons_append, command_cons (by decide)]
    exact isMotion_cons_of_ne (by decide) (by decide) _
  | toolChange => exact pathFrom_of_still position (by decide) rest
  | spindleSpeed rpm =>
    refine pathFrom_of_still position ?_ rest
    simp only [Line.text, String.toList_append]
    rw [show "S".toList = ['S'] from rfl, List.cons_append, command_cons (by decide)]
    exact isMotion_cons_of_ne (by decide) (by decide) _
  | spindleOn => exact pathFrom_of_still position (by decide) rest
  | rapidHeight z =>
    have hcommand := command_rapidHeight z
    refine pathFrom_of_motion ?_ ?_ rest
    · rw [hcommand]
      exact isMotion_code (.inl rfl) _
    · rw [hcommand]
      exact move_height position z (by decide) (by decide)
  | rapid target =>
    have hcommand := command_rapid target
    refine pathFrom_of_motion ?_ ?_ rest
    · rw [hcommand]
      exact isMotion_code (.inl rfl) _
    · rw [hcommand]
      exact move_positionWords position target (by decide) (by decide) (by decide) (by decide)
        Number.stops_nil
  | cut target feed =>
    have hcommand := command_cut target feed
    have hX : 'X' ∉ ' ' :: 'F' :: (capitals feed ++ []) := by
      simp [axis_notMem_capitals (.inl rfl) feed]
    have hZ : 'Z' ∉ ' ' :: 'F' :: (capitals feed ++ []) := by
      simp [axis_notMem_capitals (.inr rfl) feed]
    refine pathFrom_of_motion ?_ ?_ rest
    · rw [hcommand]
      exact isMotion_code (.inr rfl) _
    · rw [hcommand]
      exact move_positionWords position target (by decide) (by decide) hX hZ (stops_space _)
  | spindleOff => exact pathFrom_of_still position (by decide) rest
  | endOfProgram => exact pathFrom_of_still position (by decide) rest

/-- The reader follows the moves of the lines. -/
theorem pathFrom_map_text (position : Waypoint) {lines : List Line}
    (h : ∀ line ∈ lines, line.HasFiniteTarget) :
    Waypoint.pathFrom position (lines.map fun line => line.text.toList) = trail position lines := by
  induction lines generalizing position with
  | nil => rfl
  | cons line rest ih =>
    have hrest : ∀ line ∈ rest, line.HasFiniteTarget := fun l hl => h l (by simp [hl])
    rw [List.map_cons, pathFrom_text, Line.reached?_of_hasFiniteTarget position (h line (by simp)),
      trail]
    cases line.waypoint? position with
    | none => exact ih position hrest
    | some next => exact congrArg (next :: ·) (ih next hrest)

end Turnery.Gcode
