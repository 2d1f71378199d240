import Turnery.Proofs.Gcode.SafeOrder
import Turnery.Proofs.Geometry.Populated

/-!
# Passes of a program

Every program runs through the stages of its work, so it is in safe order. What a tool does in
between can be read off its rapid moves and the cuts behind them: it runs every polyline that has
points once, in the order of the drawing. `generate_safeOrder` says both of the text, line by line,
and `announcesPasses` that the remark at the start of a program tells how many passes a tool makes,
provided that no polyline of the drawing is empty.
-/

namespace Turnery

/-- The job without what a program does not show: names and diameters of tools, and the depth of a
pass. -/
def Job.unlabelled (job : Job) : Job where
  units := job.units
  safeZ := job.safeZ
  depthPerPass := 0
  tools := job.tools.map fun tool => ⟨tool.number, "", 0, tool.feed, tool.spindle⟩

namespace Gcode

namespace Instruction

def isCut : Instruction → Bool
  | cut _ _ _ => true
  | _ => false

/-- The instruction sets a tool up. -/
def isSetup : Instruction → Bool
  | toolSelect _ | toolChange | spindleSpeed _ | spindleOn => true
  | _ => false

theorem isSetup_eq_false_of_isMove {instruction : Instruction} (h : instruction.isMove = true) :
    instruction.isSetup = false := by
  cases instruction with
  | rapidHeight | rapid | cut => rfl
  | _ => nomatch h

end Instruction

open Instruction

/-- The passes up to the next tool, each a rapid move with the cuts directly behind it. -/
def passesAhead : List Instruction → List (List Instruction)
  | [] => []
  | .toolSelect _ :: _ => []
  | .rapid x z :: rest => (.rapid x z :: rest.takeWhile isCut) :: passesAhead rest
  | _ :: rest => passesAhead rest

/-- The numbers of the tools of a program in order, each with the passes of the tool. -/
def toolPasses : List Instruction → List (List Char × List (List Instruction))
  | [] => []
  | .toolSelect number :: rest => (number, passesAhead rest) :: toolPasses rest
  | _ :: rest => toolPasses rest

namespace Turning

/-- The instructions that a job needs to set a tool up. -/
def setup (turning : Turning) (tool : Tool) : List Instruction :=
  [.toolSelect (toolNumber tool), .toolChange,
    .spindleSpeed (Number.wholeDecimal (turning.spindleOf tool)).toList, .spindleOn]

def cutTo (turning : Turning) (tool : Tool) (p : Point Float) : Instruction :=
  .cut (number (p.x * turning.scale)).toList (number (p.y * turning.scale)).toList
    (number (turning.feedOf tool)).toList

/-- The rapid move to the first point of a polyline, and the cuts to all its points. -/
def passAlong (turning : Turning) (tool : Tool) (line : Polyline Float) : List Instruction :=
  (line.points.head?.map fun p =>
      .rapid (number (p.x * turning.scale)).toList (number (p.y * turning.scale)).toList).toList ++
    line.points.map (turning.cutTo tool)

def instructions (turning : Turning) (work : Linework Float) (job : Job) : List Instruction :=
  (turning.program work job).map Line.instruction

variable {turning : Turning} {work : Linework Float} {safeZ feed : Float} {tool : Tool}

theorem map_instruction_pass (line : Polyline Float) :
    (turning.pass safeZ (turning.feedOf tool) line).map Line.instruction =
      if line.isEmpty then []
      else turning.passAlong tool line ++ [.rapidHeight (number safeZ).toList] := by
  obtain ⟨points⟩ := line
  cases points with
  | nil => rfl
  | cons first others =>
    simp [pass, passAlong, Polyline.isEmpty, Line.instruction, cutTo, Point.scale,
      Function.comp_def]

theorem map_instruction_toolSection :
    (turning.toolSection work safeZ tool).map Line.instruction =
      turning.setup tool ++ .rapidHeight (number safeZ).toList ::
        ((work.polylines.flatMap (turning.pass safeZ (turning.feedOf tool))).map Line.instruction ++
          [.spindleOff]) := by
  simp [toolSection, setup, Line.instruction]

theorem instructions_eq (turning : Turning) (work : Linework Float) (job : Job) :
    turning.instructions work job =
      .remark :: .remark :: .unitMode job.units :: .absoluteMode ::
        ((job.tools.flatMap (turning.toolSection work job.safeZ)).map Line.instruction ++
          [.endOfProgram]) := by
  simp [instructions, program, header, Line.instruction]

theorem run_cuts {safe : List Char} (points : List (Point Float)) :
    Run safe (.cutting (number (turning.feedOf tool)).toList) (points.map (turning.cutTo tool))
      (.cutting (number (turning.feedOf tool)).toList) := by
  induction points with
  | nil => exact .nil _
  | cons p rest ih => exact .cons (.nextCut _ _ _) ih

/-- A pass starts and ends at the safe height. -/
theorem run_pass (line : Polyline Float) :
    Run (number safeZ).toList .raised
      ((turning.pass safeZ (turning.feedOf tool) line).map Line.instruction) .raised := by
  rw [map_instruction_pass]
  obtain ⟨points⟩ := line
  cases points with
  | nil => exact .nil _
  | cons first others =>
    have hpass : Run (number safeZ).toList .raised (turning.passAlong tool ⟨first :: others⟩)
        (.cutting (number (turning.feedOf tool)).toList) :=
      .cons (.rapid _ _) (.cons (.firstCut _ _ _) (run_cuts others))
    exact hpass.append (.single (.retract _))

theorem run_flatMap_pass (lines : List (Polyline Float)) :
    Run (number safeZ).toList .raised
      ((lines.flatMap (turning.pass safeZ (turning.feedOf tool))).map Line.instruction)
        .raised := by
  induction lines with
  | nil => exact .nil _
  | cons line rest ih =>
    rw [List.flatMap_cons, List.map_append]
    exact (run_pass line).append ih

/-- The spindle stands still before and after the section of a tool. -/
theorem run_toolSection :
    Run (number safeZ).toList .stopped ((turning.toolSection work safeZ tool).map Line.instruction)
      .stopped := by
  rw [map_instruction_toolSection]
  have hsetup : Run (number safeZ).toList .stopped (turning.setup tool) .started :=
    .cons (.toolSelect _) (.cons .toolChange (.cons (.spindleSpeed _) (.single .spindleOn)))
  exact hsetup.append (.cons .approach ((run_flatMap_pass _).append (.single .spindleOff)))

theorem run_flatMap_toolSection (tools : List Tool) :
    Run (number safeZ).toList .stopped
      ((tools.flatMap (turning.toolSection work safeZ)).map Line.instruction) .stopped := by
  induction tools with
  | nil => exact .nil _
  | cons tool rest ih =>
    rw [List.flatMap_cons, List.map_append]
    exact run_toolSection.append ih

/-- A program runs through its stages. -/
theorem run_instructions (turning : Turning) (work : Linework Float) (job : Job) :
    Run (number job.safeZ).toList .opening (turning.instructions work job) .ended := by
  rw [instructions_eq]
  have htools : Run (number job.safeZ).toList .stopped
      ((job.tools.flatMap (turning.toolSection work job.safeZ)).map Line.instruction) .stopped :=
    run_flatMap_toolSection job.tools
  exact .cons .remark (.cons .remark (.cons (.unitMode _) (.cons .absoluteMode
    (htools.append (.single .endOfProgram)))))

/-- A pass is nothing but moves. -/
theorem isMove_of_mem_passes {lines : List (Polyline Float)} {instruction : Instruction}
    (h : instruction ∈ (lines.flatMap (turning.pass safeZ feed)).map Line.instruction) :
    instruction.isMove = true := by
  obtain ⟨line, hline, rfl⟩ := List.mem_map.1 h
  obtain ⟨polyline, -, hmem⟩ := List.mem_flatMap.1 hline
  unfold pass at hmem
  split at hmem
  · simp at hmem
  · simp only [List.cons_append, List.mem_cons, List.mem_append, List.mem_map, List.not_mem_nil,
      or_false] at hmem
    rcases hmem with rfl | ⟨q, -, rfl⟩ | rfl <;> rfl

/-- Where a selection leaves moves out, a program shows what is selected from the setups and spindle
stops. -/
theorem filter_instructions {select : Instruction → Bool}
    (hmove : ∀ i : Instruction, i.isMove → select i = false)
    (hmodes : ∀ units, [.remark, .unitMode units, .absoluteMode, .endOfProgram].filter select = [])
    (turning : Turning) (work : Linework Float) (job : Job) :
    (turning.instructions work job).filter select =
      job.tools.flatMap fun tool =>
        (turning.setup tool ++ [Instruction.spindleOff]).filter select := by
  have hpasses : ∀ tool : Tool, ((work.polylines.flatMap
      (turning.pass job.safeZ (turning.feedOf tool))).map Line.instruction).filter select = [] := by
    intro tool
    rw [List.filter_eq_nil_iff]
    intro instruction hmem
    simp [hmove _ (isMove_of_mem_passes hmem)]
  -- Of a section, a selection without moves shows the setup and the stop of the spindle.
  have hsection : ∀ tool : Tool,
      ((turning.toolSection work job.safeZ tool).map Line.instruction).filter select =
      (turning.setup tool ++ [Instruction.spindleOff]).filter select := by
    intro tool
    rw [map_instruction_toolSection, List.filter_append, List.filter_append,
      List.filter_cons_of_neg (by simp [hmove (.rapidHeight _) rfl]), List.filter_append, hpasses,
      List.nil_append]
  have htools : ((job.tools.flatMap (turning.toolSection work job.safeZ)).map
      Line.instruction).filter select = job.tools.flatMap fun tool =>
          (turning.setup tool ++ [Instruction.spindleOff]).filter select := by
    rw [List.map_flatMap, List.filter_flatMap]
    exact congrArg (List.flatMap · job.tools) (funext hsection)
  have hmode := hmodes job.units
  simp only [List.filter_eq_nil_iff, List.mem_cons, List.not_mem_nil, or_false, forall_eq_or_imp,
    forall_eq] at hmode
  obtain ⟨hremark, hunits, habsolute, hend⟩ := hmode
  rw [instructions_eq, List.filter_cons_of_neg hremark, List.filter_cons_of_neg hremark,
    List.filter_cons_of_neg hunits, List.filter_cons_of_neg habsolute, List.filter_append, htools,
    List.filter_cons_of_neg hend, List.filter_nil, List.append_nil]

theorem takeWhile_isCut_cuts (points : List (Point Float)) (z : List Char)
    (rest : List Instruction) :
    (points.map (turning.cutTo tool) ++ .rapidHeight z :: rest).takeWhile isCut =
      points.map (turning.cutTo tool) := by
  induction points with
  | nil => rfl
  | cons p others ih => exact congrArg (turning.cutTo tool p :: ·) ih

theorem passesAhead_cuts (points : List (Point Float)) (rest : List Instruction) :
    passesAhead (points.map (turning.cutTo tool) ++ rest) = passesAhead rest := by
  induction points with
  | nil => rfl
  | cons p others ih => exact ih

theorem passesAhead_pass (line : Polyline Float) (rest : List Instruction) :
    passesAhead ((turning.pass safeZ (turning.feedOf tool) line).map Line.instruction ++ rest) =
      ([line].filter fun l => !l.isEmpty).map (turning.passAlong tool) ++ passesAhead rest := by
  rw [map_instruction_pass]
  obtain ⟨points⟩ := line
  cases points with
  | nil => rfl
  | cons first others =>
    have hread : ∀ x z : List Char,
        passesAhead (.rapid x z :: ((first :: others).map (turning.cutTo tool) ++
        .rapidHeight (number safeZ).toList :: rest)) =
          (.rapid x z :: (first :: others).map (turning.cutTo tool)) :: passesAhead rest := by
      intro x z
      rw [passesAhead, takeWhile_isCut_cuts, passesAhead_cuts]
      rfl
    simpa [passAlong, Polyline.isEmpty] using hread _ _

theorem passesAhead_flatMap_pass (lines : List (Polyline Float)) (rest : List Instruction) :
    passesAhead ((lines.flatMap (turning.pass safeZ (turning.feedOf tool))).map
      Line.instruction ++ rest) =
      (lines.filter fun line => !line.isEmpty).map (turning.passAlong tool) ++
        passesAhead rest := by
  induction lines with
  | nil => rfl
  | cons line others ih =>
    rw [List.flatMap_cons, List.map_append, List.append_assoc, passesAhead_pass, ih,
      ← List.append_assoc, ← List.map_append, ← List.filter_append]
    rfl

theorem toolPasses_moves {front : List Instruction} (h : ∀ i ∈ front, i.isMove = true)
    (rest : List Instruction) :
    toolPasses (front ++ rest) = toolPasses rest := by
  induction front with
  | nil => rfl
  | cons instruction others ih =>
    obtain ⟨hfirst, hothers⟩ := List.forall_mem_cons.1 h
    rw [← ih hothers]
    cases instruction with
    | rapidHeight | rapid | cut => rfl
    | _ => nomatch hfirst

/-- No passes are ahead of the section of a tool. -/
theorem passesAhead_toolSections (tools : List Tool) :
    passesAhead ((tools.flatMap (turning.toolSection work safeZ)).map Line.instruction ++
      [.endOfProgram]) = [] := by
  cases tools with
  | nil => rfl
  | cons tool rest =>
    rw [List.flatMap_cons, List.map_append, map_instruction_toolSection]
    rfl

theorem toolPasses_toolSections (tools : List Tool) :
    toolPasses ((tools.flatMap (turning.toolSection work safeZ)).map Line.instruction ++
      [.endOfProgram]) = tools.map fun tool =>
        (toolNumber tool, (work.polylines.filter fun line => !line.isEmpty).map
            (turning.passAlong tool)) := by
  induction tools with
  | nil => rfl
  | cons tool others ih =>
    rw [List.flatMap_cons, List.map_append, map_instruction_toolSection, List.map_cons, ← ih]
    simp only [setup, List.cons_append, List.nil_append, List.append_assoc, toolPasses, passesAhead]
    rw [passesAhead_flatMap_pass, toolPasses_moves fun i hi => isMove_of_mem_passes hi]
    simp only [passesAhead, toolPasses, passesAhead_toolSections, List.append_nil]

theorem toolPasses_instructions (turning : Turning) (work : Linework Float) (job : Job) :
    toolPasses (turning.instructions work job) = job.tools.map fun tool =>
      (toolNumber tool, (work.polylines.filter fun line => !line.isEmpty).map
          (turning.passAlong tool)) := by
  rw [instructions_eq]
  exact toolPasses_toolSections job.tools

/-- Two jobs that differ in names, diameters and depths only have one program. -/
theorem generate_unlabelled (turning : Turning) (work : Linework Float) (job : Job) :
    turning.generate work job.unlabelled = turning.generate work job := by
  have hheader : header work job.unlabelled = header work job := by simp [header, Job.unlabelled]
  have hsections : (job.unlabelled.tools.flatMap (turning.toolSection work job.safeZ)).map
      Line.text = (job.tools.flatMap (turning.toolSection work job.safeZ)).map Line.text := by
    rw [Job.unlabelled, List.flatMap_map, List.map_flatMap, List.map_flatMap]
    rfl
  have hlines : (turning.program work job.unlabelled).map Line.text =
      (turning.program work job).map Line.text := by
    rw [program, program, List.map_append, List.map_append, List.map_append, List.map_append,
      hheader, ← hsections]
    rfl
  have htext : ∀ lines : List Line, lines.map (fun line => line.text ++ "\n") =
      (lines.map Line.text).map (· ++ "\n") := fun lines => by rw [List.map_map]; rfl
  rw [generate, generate, htext, htext, hlines]

/-- Read line by line, a program is in safe order. The spindle is started and stopped once for each
tool, and each tool is set up once, in the order of the job, and runs every polyline with points
once, in the order of the drawing. -/
theorem generate_safeOrder (turning : Turning) (work : Linework Float) (job : Job) :
    ∃ program : List Instruction,
      (Text.lines (turning.generate work job).toList).map Instruction.ofText? = program.map some ∧
      SafeOrder (number job.safeZ).toList program ∧
      program.filter isSpindle = job.tools.flatMap (fun _ => [.spindleOn, .spindleOff]) ∧
      program.filter isSetup = job.tools.flatMap turning.setup ∧
      toolPasses program = job.tools.map (fun tool =>
        (toolNumber tool, (work.polylines.filter fun line => !line.isEmpty).map
          (turning.passAlong tool))) ∧
      turning.generate work job = turning.generate work job.unlabelled := by
  refine ⟨turning.instructions work job, lines_generate_eq_instructions turning work job,
    (run_instructions turning work job).safeOrder, ?_, ?_, toolPasses_instructions turning work job,
    (generate_unlabelled turning work job).symm⟩
  · rw [filter_instructions (fun _ => isSpindle_eq_false_of_isMove) fun _ => rfl]
    rfl
  · rw [filter_instructions (fun _ => isSetup_eq_false_of_isMove) fun _ => rfl]
    rfl

/-- The second line of the program is the remark that names a number of polylines and the number of
tools, and every tool makes that number of passes. -/
def AnnouncesPasses (turning : Turning) (work : Linework Float) (job : Job) : Prop :=
  ∃ (program : List Instruction) (count : Nat),
    (Text.lines (turning.generate work job).toList).map Instruction.ofText? = program.map some ∧
      (Text.lines (turning.generate work job).toList)[1]? =
        some ("; Polylines: ".toList ++ Number.digits count ++ ", Tools: ".toList ++
          Number.digits job.tools.length) ∧
      (toolPasses program).length = job.tools.length ∧ ∀ tool ∈ toolPasses program,
        tool.2.length = count

theorem announcesPasses (turning : Turning) {work : Linework Float} (h : work.IsPopulated)
    (job : Job) :
    turning.AnnouncesPasses work job := by
  have hall : (work.polylines.filter fun line => !line.isEmpty) = work.polylines := by
    rw [List.filter_eq_self]
    intro line hline
    simpa [Polyline.isEmpty] using h line hline
  refine ⟨turning.instructions work job, work.polylineCount,
    lines_generate_eq_instructions turning work job, ?_, ?_, ?_⟩
  · rw [lines_generate]
    simp [program, header, Line.text]
  · rw [toolPasses_instructions, List.length_map]
  · rw [toolPasses_instructions, hall]
    intro tool htool
    obtain ⟨_, -, rfl⟩ := List.mem_map.1 htool
    exact List.length_map _

end Turning

end Gcode

end Turnery
