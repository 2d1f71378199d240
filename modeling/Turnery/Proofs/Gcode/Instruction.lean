import Turnery.Proofs.Gcode.Tour

/-!
# Instructions

A controller does not know from what a line was made. It reads the words of the line, which are
separated by spaces, and takes the line for one of a few instructions.
`lines_generate_eq_instructions` says which instructions the lines of a program are read as; from
there on an argument about the machine needs neither the text nor the numbers that the words denote.
-/

namespace Turnery.Gcode

/-- What a line tells the machine; numbers are kept as their texts. -/
inductive Instruction where
  | remark
  | unitMode (units : Units)
  | absoluteMode
  | toolSelect (number : List Char)
  | toolChange
  | spindleSpeed (speed : List Char)
  | spindleOn
  | rapidHeight (z : List Char)
  | rapid (x z : List Char)
  | cut (x z feed : List Char)
  | spindleOff
  | endOfProgram
  deriving DecidableEq

namespace Instruction

def ofWords? : List (List Char) → Option Instruction
  | [['G', '2', '0']] => some (.unitMode .inch)
  | [['G', '2', '1']] => some (.unitMode .mm)
  | [['G', '9', '0']] => some .absoluteMode
  | ['T' :: number] => some (.toolSelect number)
  | [['M', '6']] => some .toolChange
  | ['S' :: speed] => some (.spindleSpeed speed)
  | [['M', '3']] => some .spindleOn
  | [['G', '0'], 'Z' :: z] => some (.rapidHeight z)
  | [['G', '0'], 'X' :: x, 'Z' :: z] => some (.rapid x z)
  | [['G', '1'], 'X' :: x, 'Z' :: z, 'F' :: feed] => some (.cut x z feed)
  | [['M', '5']] => some .spindleOff
  | [['M', '3', '0']] => some .endOfProgram
  | _ => none

/-- The instruction of a line; behind a semicolon stands a remark. -/
def ofText? (text : List Char) : Option Instruction :=
  if text.head? = some ';' then some .remark else ofWords? (text.splitOn ' ')

end Instruction

/-- The text of the number in the word that selects a tool. -/
def toolNumber (tool : Tool) : List Char :=
  tool.word.toList.tail

def Line.instruction : Line → Instruction
  | remark _ => .remark
  | unitMode units => .unitMode units
  | absoluteMode => .absoluteMode
  | toolSelect tool => .toolSelect (toolNumber tool)
  | toolChange => .toolChange
  | spindleSpeed rpm => .spindleSpeed (Number.wholeDecimal rpm).toList
  | spindleOn => .spindleOn
  | rapidHeight z => .rapidHeight (number z).toList
  | rapid target => .rapid (number target.x).toList (number target.y).toList
  | cut target feed => .cut (number target.x).toList (number target.y).toList (number feed).toList
  | spindleOff => .spindleOff
  | endOfProgram => .endOfProgram

theorem space_notMem_of_isDigit {ds : List Char} (h : ∀ c ∈ ds, c.isDigit = true) : ' ' ∉ ds :=
  fun hmem => absurd (h _ hmem) (by decide)

theorem space_notMem_of_isDecimal {word : List Char} (h : Number.IsDecimal word) : ' ' ∉ word := by
  intro hmem
  rcases h.digit_or_mark hmem with hd | hd | hd
  · exact absurd hd (by decide)
  · exact absurd hd (by decide)
  · exact absurd hd (by decide)

theorem space_notMem_signed (negative : Bool) {word : String} (h : ' ' ∉ word.toList) :
    ' ' ∉ (Number.signed negative word).toList := by
  cases negative with
  | false => exact h
  | true => simpa [Number.signed] using h

/-- Number words are single words, whatever the number is. -/
theorem space_notMem_number (x : Float) : ' ' ∉ (number x).toList := by
  unfold number Number.trimmedDecimal
  split
  · decide
  · exact space_notMem_signed _ (by decide)
  · rw [String.toList_ofList]
    exact space_notMem_of_isDecimal (Number.isDecimal_canonicalDecimal _ _ _)

theorem space_notMem_wholeDecimal (x : Float) : ' ' ∉ (Number.wholeDecimal x).toList := by
  unfold Number.wholeDecimal
  split
  · decide
  · exact space_notMem_signed _ (by decide)
  · refine space_notMem_signed _ ?_
    rw [String.toList_ofList]
    exact space_notMem_of_isDigit (Number.isDigits_digits _).isDigit

theorem toList_word (tool : Tool) : tool.word.toList = 'T' :: toolNumber tool := by
  simp [toolNumber, Tool.word]

theorem space_notMem_toolNumber (tool : Tool) : ' ' ∉ toolNumber tool := by
  refine space_notMem_of_isDigit fun c hc => ?_
  have hdigits : toolNumber tool =
      List.replicate (2 - (Number.digits tool.number).length) '0' ++ Number.digits tool.number := by
    simp [toolNumber, Tool.word]
  rw [hdigits] at hc
  rcases List.mem_append.1 hc with hc | hc
  · rw [List.eq_of_mem_replicate hc]
    decide
  · exact (Number.isDigits_digits _).isDigit c hc

theorem ofText?_of_head {text : List Char} (h : text.head? ≠ some ';') :
    Instruction.ofText? text = Instruction.ofWords? (text.splitOn ' ') := by
  rw [Instruction.ofText?, if_neg h]

/-- The words behind the code of a move. -/
theorem ofText?_move {digit : Char} (h : digit ≠ ' ') (rest : List Char) :
    Instruction.ofText? ('G' :: digit :: ' ' :: rest) =
      Instruction.ofWords? (['G', digit] :: rest.splitOn ' ') := by
  have hcode : ' ' ∉ ['G', digit] := by simp [h.symm]
  rw [ofText?_of_head (by simp)]
  exact congrArg _ (List.splitOn_append_cons_self_of_not_mem hcode rest)

theorem splitOn_positionWords (p : Point Float) (rest : List Char) :
    ((positionWords p).toList ++ ' ' :: rest).splitOn ' ' =
      ('X' :: (number p.x).toList) :: ('Z' :: (number p.y).toList) :: rest.splitOn ' ' := by
  have hshape : (positionWords p).toList ++ ' ' :: rest =
      ('X' :: (number p.x).toList) ++ ' ' :: (('Z' :: (number p.y).toList) ++ ' ' :: rest) := by
    simp [positionWords]
  rw [hshape, List.splitOn_append_cons_self_of_not_mem, List.splitOn_append_cons_self_of_not_mem]
  · simpa using space_notMem_number p.y
  · simpa using space_notMem_number p.x

theorem splitOn_positionWords_last (p : Point Float) :
    (positionWords p).toList.splitOn ' ' =
      ['X' :: (number p.x).toList, 'Z' :: (number p.y).toList] := by
  have hshape : (positionWords p).toList =
      ('X' :: (number p.x).toList) ++ ' ' :: ('Z' :: (number p.y).toList) := by
    simp [positionWords]
  rw [hshape, List.splitOn_append_cons_self_of_not_mem, List.splitOn_eq_singleton]
  · simpa using space_notMem_number p.y
  · simpa using space_notMem_number p.x

/-- A line is read as the instruction that it was written for. -/
theorem ofText?_text (line : Line) :
    Instruction.ofText? line.text.toList = some line.instruction := by
  cases line with
  | remark text => simp [Line.text, Instruction.ofText?, Line.instruction]
  | unitMode units => cases units <;> decide
  | absoluteMode => decide
  | toolSelect tool =>
    have hword : ' ' ∉ 'T' :: toolNumber tool := by simpa using space_notMem_toolNumber tool
    rw [Line.text, toList_word, ofText?_of_head (by simp), List.splitOn_eq_singleton hword]
    rfl
  | toolChange => decide
  | spindleSpeed rpm =>
    have hshape : (Line.spindleSpeed rpm).text.toList =
        'S' :: (Number.wholeDecimal rpm).toList := by
      simp [Line.text]
    have hword : ' ' ∉ 'S' :: (Number.wholeDecimal rpm).toList := by
      simpa using space_notMem_wholeDecimal rpm
    rw [hshape, ofText?_of_head (by simp), List.splitOn_eq_singleton hword]
    rfl
  | spindleOn => decide
  | rapidHeight z =>
    have hshape : (Line.rapidHeight z).text.toList =
        'G' :: '0' :: ' ' :: 'Z' :: (number z).toList := by
      simp [Line.text]
    have hword : ' ' ∉ 'Z' :: (number z).toList := by simpa using space_notMem_number z
    rw [hshape, ofText?_move (by decide), List.splitOn_eq_singleton hword]
    rfl
  | rapid target =>
    have hshape : (Line.rapid target).text.toList =
        'G' :: '0' :: ' ' :: (positionWords target).toList := by
      simp [Line.text]
    rw [hshape, ofText?_move (by decide), splitOn_positionWords_last]
    rfl
  | cut target feed =>
    have hshape : (Line.cut target feed).text.toList =
        'G' :: '1' :: ' ' :: ((positionWords target).toList ++ ' ' :: 'F' ::
            (number feed).toList) := by
      simp [Line.text]
    have hword : ' ' ∉ 'F' :: (number feed).toList := by simpa using space_notMem_number feed
    rw [hshape, ofText?_move (by decide), splitOn_positionWords, List.splitOn_eq_singleton hword]
    rfl
  | spindleOff => decide
  | endOfProgram => decide

/-- The lines of a program are read as the instructions of its lines. -/
theorem lines_generate_eq_instructions (turning : Turning) (work : Linework Float) (job : Job) :
    (Text.lines (turning.generate work job).toList).map Instruction.ofText? =
      ((turning.program work job).map Line.instruction).map some := by
  rw [Turning.lines_generate, List.map_map, List.map_map]
  exact List.map_congr_left fun line _ => ofText?_text line

end Turnery.Gcode
