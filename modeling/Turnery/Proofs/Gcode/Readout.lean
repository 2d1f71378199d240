import Turnery.Command.Run
import Turnery.Proofs.Gcode.Instruction
import Turnery.Proofs.Number.Reread

/-!
# What a replay shows

A replay reads a program, takes its words for doubles and writes the positions with the same number
of decimals as the program. Since the doubles read are written as the words they were read from, the
replay repeats words of the program: `simulate_generate`.
-/

namespace Turnery.Gcode

/-- The word that is read from the text of a finite number is written as that text. -/
theorem number_denoted {x : Float} (h : x.isFinite = true) :
    number (denoted (number x)) = number x := by
  obtain ⟨y, hread, hsame⟩ := Number.trimmedDecimal_reread h
  have hdenoted : denoted (number x) = y := by
    rw [denoted, show Number.float? (number x).toList = some y from hread, Option.getD_some]
  rw [hdenoted]
  exact hsame

/-- The texts in the axis words of a motion instruction; not every one moves across. -/
def Instruction.axisWords? : Instruction → Option (Option (List Char) × List Char)
  | rapidHeight z => some (none, z)
  | rapid x z => some (some x, z)
  | cut x z _ => some (some x, z)
  | _ => none

/-- One line for each motion instruction, with the texts that were last written for either axis; of
the texts written only legible ones count. -/
def readouts (legible : List Char → Bool) (x z : List Char) : List Instruction → List String
  | [] => []
  | instruction :: rest =>
    match instruction.axisWords? with
    | none => readouts legible x z rest
    | some (across, along) =>
      let x := (across.filter legible).getD x
      let z := ((some along).filter legible).getD z
      ("X" ++ String.ofList x ++ " Z" ++ String.ofList z ++ "\n") :: readouts legible x z rest

/-- The text is a numeral; what is infinite or no number is written in letters. -/
def isNumeral (word : List Char) : Bool :=
  word.any Char.isDigit

theorem isNumeral_number (x : Float) : isNumeral (number x).toList = x.isFinite := by
  cases hx : x.isFinite with
  | true =>
    have hdigit : ∀ {text : List Char}, Number.IsUnsigned text → isNumeral text = true := by
      intro text h
      obtain ⟨d, rest, rfl, hd⟩ := h.exists_cons
      simp [isNumeral, hd]
    have hshape := isDecimal_number hx
    generalize (number x).toList = word at hshape
    cases hshape with
    | unsigned body => exact hdigit body
    | negative body => simpa [isNumeral] using hdigit body
  | false => rcases number_of_not_isFinite hx with h | h | h <;> rw [h] <;> decide

/-- The numbers in the axis words of a line. -/
def Line.targets : Line → List Float
  | rapidHeight z => [z]
  | rapid target => [target.x, target.y]
  | cut target _ => [target.x, target.y]
  | _ => []

theorem Line.isFinite_of_mem_targets {line : Line} (h : line.HasFiniteTarget) {x : Float}
    (hx : x ∈ line.targets) :
    x.isFinite = true := by
  cases line with
  | rapidHeight z =>
    obtain rfl := List.mem_singleton.1 hx
    exact h
  | rapid target | cut target feed =>
    obtain ⟨hfirst, hsecond⟩ := Bool.and_eq_true_iff.1 h
    rcases List.mem_pair.1 hx with rfl | rfl
    · exact hfirst
    · exact hsecond
  | _ => cases hx

/-- A word that is heeded is shown again, and one that is not leaves what was shown before. -/
theorem number_getD_heeded {legible : List Char → Bool} {x : Float}
    (h : legible (number x).toList = x.isFinite) (old : Float) :
    (number ((heeded x).getD old)).toList =
      ((some (number x).toList).filter legible).getD (number old).toList := by
  cases hx : x.isFinite with
  | true =>
    rw [hx] at h
    rw [heeded_of_isFinite hx, Option.getD_some, number_denoted hx, Option.filter_some, if_pos h,
      Option.getD_some]
  | false =>
    rw [hx] at h
    rw [heeded, hx, if_neg Bool.false_ne_true, Option.filter_some, h, if_neg Bool.false_ne_true]
    rfl

theorem waypointLine_eq (position : Waypoint) : Command.waypointLine position =
    "X" ++ String.ofList (number position.x).toList ++ " Z" ++
      String.ofList (number position.z).toList ++ "\n" := by
  rw [Command.waypointLine, String.ofList_toList, String.ofList_toList]

/-- The positions that are read from lines, written again, are the words of their instructions. -/
theorem map_waypointLine_pathFrom {legible : List Char → Bool} (position : Waypoint)
    {lines : List Line}
    (h : ∀ line ∈ lines, ∀ x ∈ line.targets, legible (number x).toList = x.isFinite) :
    (Waypoint.pathFrom position (lines.map fun line => line.text.toList)).map Command.waypointLine =
      readouts legible (number position.x).toList (number position.z).toList
        (lines.map Line.instruction) := by
  induction lines generalizing position with
  | nil => rfl
  | cons line rest ih =>
    have hline := h line List.mem_cons_self
    have hrest := fun position => ih position fun l hl => h l (List.mem_cons_of_mem _ hl)
    rw [List.map_cons, List.map_cons, pathFrom_text, readouts]
    cases line with
    | rapidHeight z =>
      have hz := number_getD_heeded (hline z (by simp [Line.targets])) position.z
      simp only [Line.reached?, Line.instruction, Instruction.axisWords?, List.map_cons,
        waypointLine_eq, hrest, hz]
      rfl
    | rapid target | cut target feed =>
      have hx := number_getD_heeded (hline target.x (by simp [Line.targets])) position.x
      have hz := number_getD_heeded (hline target.y (by simp [Line.targets])) position.z
      simp only [Line.reached?, Line.instruction, Instruction.axisWords?, List.map_cons,
        waypointLine_eq, hrest, hx, hz]
    | _ => exact hrest position

/-- The word of an axis is read as the number in it. -/
theorem axisValue?_word (axis : Char) {x : Float} (h : x.isFinite = true) :
    Waypoint.axisValue? axis (axis :: (number x).toList) = some (denoted (number x)) := by
  have hlexeme := axisLexeme?_word axis (isDecimal_number h) Number.stops_nil
  rw [List.append_nil] at hlexeme
  rw [Waypoint.axisValue?, hlexeme, Option.bind_some, float?_number h]

/-- A replay shows the waypoints of the text that it has read, and nothing if there is none. -/
theorem texts_simulate {s : Settings} {program text : String} {speed : Option Float}
    {w : Files.Workspace} (hread : w.readText program = .ok text) :
    (Command.simulate s program speed w).display.texts =
      (Waypoint.path text).map Command.waypointLine := by
  simp only [Command.simulate, hread]
  split
  · rename_i hnone
    rw [hnone]
    rfl
  · rfl

namespace Turning

theorem texts_simulate_generate {legible : List Char → Bool} {turning : Turning}
    {work : Linework Float} {job : Job} {s : Settings} {program : String} {speed : Option Float}
    {w : Files.Workspace} (hread : w.readText program = .ok (turning.generate work job))
    (h : ∀ line ∈ turning.program work job, ∀ x ∈ line.targets,
      legible (number x).toList = x.isFinite) :
    (Command.simulate s program speed w).display.texts =
      readouts legible ['0'] ['0'] ((turning.program work job).map Line.instruction) := by
  have hzero : (number 0).toList = ['0'] := by decide +kernel
  rw [texts_simulate hread, Waypoint.path, lines_generate, map_waypointLine_pathFrom _ h]
  show readouts legible (number 0).toList (number 0).toList _ = _
  rw [hzero]

/-- The word of a finite number, read with or without the letter of an axis, denotes a double for
which the same word is written. A replay of a written program thus shows, for each motion line, the
texts of the X and Z words written last, letter for letter, or `0` before any; where numbers have
overflowed their words are passed over. -/
theorem simulate_generate :
    (∀ x : Float, x.isFinite = true → ∃ y, Number.float? (number x).toList = some y ∧
      (∀ axis, Waypoint.axisValue? axis (axis :: (number x).toList) = some y) ∧
        number y = number x) ∧
    ∀ (turning : Turning) (work : Linework Float) (job : Job) (s : Settings) (program : String)
      (speed : Option Float)
      (w : Files.Workspace), w.readText program = .ok (turning.generate work job) →
      ∃ instructions : List Instruction,
        (Text.lines (turning.generate work job).toList).map Instruction.ofText? =
          instructions.map some ∧
        (Command.simulate s program speed w).display.texts =
          readouts isNumeral ['0'] ['0'] instructions ∧
        (job.safeZ.isFinite = true → (∀ p ∈ work.points, (p.scale turning.scale).isFinite = true) →
          (Command.simulate s program speed w).display.texts =
            readouts (fun _ => true) ['0'] ['0'] instructions) := by
  refine ⟨fun x hx => ⟨_, float?_number hx, fun axis => axisValue?_word axis hx, number_denoted hx⟩,
    ?_⟩
  intro turning work job s program speed w hread
  refine ⟨_, lines_generate_eq_instructions turning work job, ?_, ?_⟩
  · exact texts_simulate_generate hread fun line _ x _ => isNumeral_number x
  · intro height points
    refine texts_simulate_generate hread fun line hline x hx => ?_
    exact (Line.isFinite_of_mem_targets (hasFiniteTarget_of_mem_program height points hline)
      hx).symm

/-- Both tools show the same words; a tenth, which no double is, and a large number come back as
they were written. -/
theorem simulate_generate_two_tools :
    let work : Linework Float := ⟨[⟨[⟨0.1, -0.00004⟩, ⟨-2.5, 1e20⟩]⟩, ⟨[]⟩]⟩
    let job : Job := ⟨.mm, 7.25, 0.5, [⟨1, "Rougher", 6, 0.2, 1200⟩, ⟨2, "Finisher", 1, 0, 0⟩]⟩
    let program := standard.generate work job
    let w : Files.Workspace := ⟨["home"],
      [(["home"], .directory), (["home", "job.nc"], .file (Text.Utf8.encode program.toList))], [],
      none, 0, []⟩
    (w.readText "job.nc" = .ok program ∧ job.safeZ.isFinite = true ∧
      ∀ p ∈ work.points, (p.scale standard.scale).isFinite = true) ∧
    (∃ y, Number.float? (number 0.1).toList = some y ∧
      (∀ axis, Waypoint.axisValue? axis (axis :: (number 0.1).toList) = some y) ∧
        number y = number 0.1) ∧
      (Command.simulate .standard "job.nc" none w).display.texts =
        ["X0 Z7.25\n", "X0.1 Z0\n", "X0.1 Z0\n", "X-2.5 Z100000000000000000000\n", "X-2.5 Z7.25\n",
          "X-2.5 Z7.25\n", "X0.1 Z0\n", "X0.1 Z0\n", "X-2.5 Z100000000000000000000\n",
          "X-2.5 Z7.25\n"] := by
  intro work job program w
  have hread : w.readText "job.nc" = .ok program := by
    have hfault : Files.Workspace.fault? "job.nc" = none := by
      have hplain : "job.nc".contains '\x00' = false := by simp
      rw [Files.Workspace.fault?, hplain]
      rfl
    apply Files.Workspace.readText_of_find?
    rw [Files.Workspace.find?, Files.Workspace.place?, Files.Workspace.placeBy, hfault]
    rfl
  have height : job.safeZ.isFinite = true := by decide
  have points : ∀ p ∈ work.points, (p.scale standard.scale).isFinite = true := by decide +kernel
  obtain ⟨reread, shown⟩ := simulate_generate
  obtain ⟨instructions, hlines, -, hshown⟩ :=
    shown standard work job .standard "job.nc" none w hread
  have hinstructions : instructions = (standard.program work job).map Line.instruction := by
    rw [lines_generate_eq_instructions] at hlines
    exact (List.map_injective_iff.2 (Option.some_injective _) hlines).symm
  refine ⟨⟨hread, height, points⟩, reread 0.1 (by decide), ?_⟩
  rw [hshown height points, hinstructions]
  decide +kernel

end Turning

end Turnery.Gcode
