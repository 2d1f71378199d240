import Turnery.Proofs.Gcode.Motion

/-!
# The tour of a job

A program is written by one part of the library and read back by another, and the two share nothing
but the text. `path_generate` says what comes back: for each tool, the safe height above wherever
the tool is, and for each polyline its first point, all its points and the safe height above the
last one. Coordinates come back as the doubles that their number words denote.
-/

namespace Turnery.Gcode

def IsOneLine (text : List Char) : Prop :=
  ∀ c ∈ text, c ≠ '\n' ∧ c ≠ '\r'

instance (text : List Char) : Decidable (IsOneLine text) :=
  List.decidableBAll (fun c => c ≠ '\n' ∧ c ≠ '\r') text

theorem IsOneLine.append {front back : List Char} (hfront : IsOneLine front)
    (hback : IsOneLine back) :
    IsOneLine (front ++ back) := by
  intro c hc
  rcases List.mem_append.1 hc with hc | hc
  · exact hfront c hc
  · exact hback c hc

theorem isOneLine_of_isDigit {ds : List Char} (h : ∀ c ∈ ds, c.isDigit = true) : IsOneLine ds := by
  intro c hc
  constructor <;> rintro rfl <;> exact absurd (h _ hc) (by decide)

theorem isOneLine_of_isDecimal {word : List Char} (h : Number.IsDecimal word) : IsOneLine word := by
  intro c hc
  rcases h.digit_or_mark hc with hd | rfl | rfl
  · constructor <;> rintro rfl <;> exact absurd hd (by decide)
  · decide
  · decide

theorem isOneLine_signed (negative : Bool) {word : String} (h : IsOneLine word.toList) :
    IsOneLine (Number.signed negative word).toList := by
  cases negative with
  | false => exact h
  | true =>
    have hminus : IsOneLine "-".toList := by decide
    simpa [Number.signed] using hminus.append h

/-- Number words have no line ends, those of infinite values and of values that are no numbers
included. -/
theorem isOneLine_number (x : Float) : IsOneLine (number x).toList := by
  unfold number Number.trimmedDecimal
  split
  · decide
  · exact isOneLine_signed _ (by decide)
  · rw [String.toList_ofList]
    exact isOneLine_of_isDecimal (Number.isDecimal_canonicalDecimal _ _ _)

theorem isOneLine_digits (n : Nat) : IsOneLine (Number.digits n) :=
  isOneLine_of_isDigit (Number.isDigits_digits n).isDigit

theorem isOneLine_wholeDecimal (x : Float) : IsOneLine (Number.wholeDecimal x).toList := by
  unfold Number.wholeDecimal
  split
  · decide
  · exact isOneLine_signed _ (by decide)
  · refine isOneLine_signed _ ?_
    rw [String.toList_ofList]
    exact isOneLine_digits _

theorem isOneLine_toolWord (tool : Tool) : IsOneLine tool.word.toList := by
  have hletter : IsOneLine "T".toList := by decide
  have hzeros : IsOneLine (List.replicate (2 - (Number.digits tool.number).length) '0') :=
    isOneLine_of_isDigit fun c hc => by rw [List.eq_of_mem_replicate hc]; decide
  simpa [Tool.word] using hletter.append (hzeros.append (isOneLine_digits tool.number))

theorem isOneLine_positionWords (p : Point Float) : IsOneLine (positionWords p).toList := by
  have hX : IsOneLine "X".toList := by decide
  have hZ : IsOneLine " Z".toList := by decide
  simpa [positionWords] using
    hX.append ((isOneLine_number p.x).append (hZ.append (isOneLine_number p.y)))

/-- The text of every line but a remark is one line. -/
theorem isOneLine_text {line : Line} (h : ∀ text, line = .remark text → IsOneLine text.toList) :
    IsOneLine line.text.toList := by
  cases line with
  | remark text =>
    have hmark : IsOneLine "; ".toList := by decide
    simpa [Line.text] using hmark.append (h text rfl)
  | unitMode units => cases units <;> decide
  | absoluteMode => decide
  | toolSelect tool => exact isOneLine_toolWord tool
  | toolChange => decide
  | spindleSpeed rpm =>
    have hletter : IsOneLine "S".toList := by decide
    simpa [Line.text] using hletter.append (isOneLine_wholeDecimal rpm)
  | spindleOn => decide
  | rapidHeight z =>
    have hcode : IsOneLine "G0 Z".toList := by decide
    simpa [Line.text] using hcode.append (isOneLine_number z)
  | rapid target =>
    have hcode : IsOneLine "G0 ".toList := by decide
    simpa [Line.text] using hcode.append (isOneLine_positionWords target)
  | cut target feed =>
    have hcode : IsOneLine "G1 ".toList := by decide
    have hfeed : IsOneLine " F".toList := by decide
    simpa [Line.text] using
      hcode.append ((isOneLine_positionWords target).append (hfeed.append (isOneLine_number feed)))
  | spindleOff => decide
  | endOfProgram => decide

namespace Turning

theorem remark_notMem_pass (turning : Turning) (safeZ feed : Float) (line : Polyline Float)
    (text : String) :
    Line.remark text ∉ turning.pass safeZ feed line := by
  unfold pass
  split <;> simp

theorem remark_notMem_toolSection (turning : Turning) (work : Linework Float) (safeZ : Float)
    (tool : Tool) (text : String) : Line.remark text ∉ turning.toolSection work safeZ tool := by
  simp [toolSection, remark_notMem_pass]

/-- A program has remarks only in its header. -/
theorem isOneLine_of_mem_program {turning : Turning} {work : Linework Float} {job : Job}
    {line : Line} (h : line ∈ turning.program work job) : IsOneLine line.text.toList := by
  apply isOneLine_text
  rintro text rfl
  have hheader : Line.remark text ∈ header work job := by
    simpa [program, remark_notMem_toolSection] using h
  rcases (by simpa [header] using hheader : text = _ ∨ text = _) with rfl | rfl
  · decide
  · have hcount : IsOneLine "Polylines: ".toList := by decide
    have htools : IsOneLine ", Tools: ".toList := by decide
    simpa using hcount.append ((isOneLine_digits _).append (htools.append (isOneLine_digits _)))

/-- The lines of the text are the texts of the lines. -/
theorem lines_generate (turning : Turning) (work : Linework Float) (job : Job) :
    Text.lines (turning.generate work job).toList =
      (turning.program work job).map fun line => line.text.toList := by
  have htext : (turning.generate work job).toList =
      Text.unlines ((turning.program work job).map fun line => line.text.toList) := by
    simp [generate, String.toList_join, Text.unlines, List.flatMap_map]
  rw [htext]
  apply Text.lines_unlines
  intro text hmem
  obtain ⟨line, hline, rfl⟩ := List.mem_map.1 hmem
  have hone := isOneLine_of_mem_program hline
  refine ⟨fun hc => (hone _ hc).1 rfl, fun hend => ?_⟩
  exact (hone _ (List.mem_of_getLast? hend)).2 rfl

end Turning

section Tour

variable (reach : Point Float → Waypoint) (safe : Float)

/-- The waypoints of a pass: the first point, every point, and the safe height above the last
one. -/
def passTour : List (Point Float) → List Waypoint
  | [] => []
  | first :: others =>
    reach first :: (first :: others).map reach ++ [⟨(reach (others.getLastD first)).x, safe⟩]

/-- The waypoints of a tool that starts at an abscissa: the safe height there, and its passes. -/
def toolTour (work : Linework Float) (x : Float) : List Waypoint :=
  ⟨x, safe⟩ :: work.polylines.flatMap fun line => passTour reach safe line.points

/-- The waypoints of all tools; each starts at the abscissa of the waypoint before. -/
def jobTour (work : Linework Float) : Waypoint → List Tool → List Waypoint
  | _, [] => []
  | before, _ :: tools =>
    let stops := toolTour reach safe work before.x
    stops ++ jobTour work (stops.getLastD before) tools

end Tour

namespace Turning

/-- The waypoint that stands for a point of the drawing. -/
def reach (turning : Turning) (p : Point Float) : Waypoint :=
  ⟨denoted (number (p.x * turning.scale)), denoted (number (p.y * turning.scale))⟩

theorem trail_map_cut (feed : Float) (position : Waypoint) (points : List (Point Float)) :
    trail position (points.map (Line.cut · feed)) =
      points.map fun p => ⟨denoted (number p.x), denoted (number p.y)⟩ := by
  induction points generalizing position with
  | nil => rfl
  | cons p rest ih => simp [trail, Line.waypoint?, ih]

/-- A pass makes its tour wherever the tool is before it. -/
theorem trail_pass (turning : Turning) (safeZ feed : Float) (line : Polyline Float)
    (position : Waypoint) :
    trail position (turning.pass safeZ feed line) =
      passTour turning.reach (denoted (number safeZ)) line.points := by
  obtain ⟨points⟩ := line
  cases points with
  | nil => rfl
  | cons first others =>
    have hcuts : trail (turning.reach first)
        (((first :: others).map (Point.scale turning.scale)).map (Line.cut · feed)) =
          (first :: others).map turning.reach := by
      rw [trail_map_cut, List.map_map]
      rfl
    have hlast : ((first :: others).map turning.reach).getLastD (turning.reach first) =
        turning.reach (others.getLastD first) := by
      rw [List.map_cons, List.getLastD_cons, List.getLastD_map]
    have happ := trail_append (turning.reach first)
      (((first :: others).map (Point.scale turning.scale)).map (Line.cut · feed))
      [.rapidHeight safeZ]
    rw [hcuts, hlast] at happ
    calc trail position (turning.pass safeZ feed ⟨first :: others⟩)
        = turning.reach first :: trail (turning.reach first)
            (((first :: others).map (Point.scale turning.scale)).map (Line.cut · feed) ++
              [.rapidHeight safeZ]) := rfl
      _ = passTour turning.reach (denoted (number safeZ)) (first :: others) := by
          rw [happ]
          rfl

theorem trail_flatMap_pass (turning : Turning) (safeZ feed : Float) (lines : List (Polyline Float))
    (position : Waypoint) :
    trail position (lines.flatMap (turning.pass safeZ feed)) =
      lines.flatMap fun line => passTour turning.reach (denoted (number safeZ)) line.points := by
  induction lines generalizing position with
  | nil => rfl
  | cons line rest ih =>
    rw [List.flatMap_cons, List.flatMap_cons, trail_append, trail_pass, ih]

/-- Of the lines around the passes of a tool, only the move to the safe height adds a waypoint. -/
theorem trail_toolSection (turning : Turning) (work : Linework Float) (safeZ : Float) (tool : Tool)
    (position : Waypoint) :
    trail position (turning.toolSection work safeZ tool) =
      toolTour turning.reach (denoted (number safeZ)) work position.x := by
  simp only [toolSection, List.cons_append, List.nil_append, trail, Line.waypoint?, toolTour]
  rw [trail_append, trail_flatMap_pass]
  simp [trail, Line.waypoint?]

theorem trail_flatMap_toolSection (turning : Turning) (work : Linework Float) (safeZ : Float)
    (tools : List Tool) (position : Waypoint) :
    trail position (tools.flatMap (turning.toolSection work safeZ)) =
      jobTour turning.reach (denoted (number safeZ)) work position tools := by
  induction tools generalizing position with
  | nil => rfl
  | cons tool rest ih =>
    rw [List.flatMap_cons, trail_append, trail_toolSection, ih]
    rfl

/-- The moves of a program are the tour of its job. -/
theorem trail_program (turning : Turning) (work : Linework Float) (job : Job) :
    trail .origin (turning.program work job) =
      jobTour turning.reach (denoted (number job.safeZ)) work .origin job.tools := by
  rw [program, trail_append, trail_append]
  have hheader : trail .origin (header work job) = [] := rfl
  rw [hheader, List.getLastD_nil, trail_flatMap_toolSection]
  simp [trail, Line.waypoint?]

theorem hasFiniteTarget_of_mem_pass {turning : Turning} {safeZ feed : Float} {line : Polyline Float}
    (height : safeZ.isFinite = true)
    (points : ∀ p ∈ line.points, (p.scale turning.scale).isFinite = true) {l : Line}
    (hl : l ∈ turning.pass safeZ feed line) : l.HasFiniteTarget := by
  have scaled : ∀ q ∈ line.points.map (Point.scale turning.scale), q.isFinite = true :=
    List.forall_mem_map.2 points
  unfold pass at hl
  split at hl
  · simp at hl
  · rename_i first others heq
    rw [heq] at scaled
    simp only [List.cons_append, List.mem_cons, List.mem_append, List.mem_map, List.not_mem_nil,
      or_false] at hl
    rcases hl with rfl | ⟨q, hq, rfl⟩ | rfl
    · exact scaled first (by simp)
    · exact scaled q (by simpa using hq)
    · exact height

/-- The targets of a program are the safe height and the scaled points. -/
theorem hasFiniteTarget_of_mem_program {turning : Turning} {work : Linework Float} {job : Job}
    (height : job.safeZ.isFinite = true)
    (points : ∀ p ∈ work.points, (p.scale turning.scale).isFinite = true) {l : Line}
    (hl : l ∈ turning.program work job) : l.HasFiniteTarget := by
  simp only [program, header, toolSection, List.cons_append, List.nil_append, List.mem_append,
    List.mem_cons, List.mem_flatMap, List.not_mem_nil, or_false] at hl
  -- Only the moves to the safe height and the passes have targets.
  rcases hl with rfl | rfl | rfl | rfl | ⟨tool, -, hl⟩ | rfl <;> try trivial
  rcases hl with rfl | rfl | rfl | rfl | rfl | ⟨line, hline, hl⟩ | rfl <;> try trivial
  refine hasFiniteTarget_of_mem_pass height (fun p hp => points p ?_) hl
  exact List.mem_flatMap.2 ⟨line, hline, hp⟩

/-- Reading a program gives the tour of its job, and the words of finite numbers are numerals. -/
theorem path_generate (turning : Turning) (work : Linework Float) (job : Job)
    (height : job.safeZ.isFinite = true)
    (points : ∀ p ∈ work.points, (p.scale turning.scale).isFinite = true) :
    Waypoint.path (turning.generate work job) =
        jobTour turning.reach (denoted (number job.safeZ)) work .origin job.tools ∧
      ∀ x : Float, x.isFinite = true →
        Number.float? (number x).toList = some (denoted (number x)) := by
  refine ⟨?_, fun _ => float?_number⟩
  rw [Waypoint.path, lines_generate,
    pathFrom_map_text _ fun _ => hasFiniteTarget_of_mem_program height points, trail_program]

/-- The second tool starts where the first one ends, and the empty polyline has no pass. -/
theorem path_generate_two_tools :
    let work : Linework Float := ⟨[⟨[⟨0, 0⟩, ⟨-2.5, 5⟩]⟩, ⟨[]⟩]⟩
    let job : Job := ⟨.mm, 7.25, 0.5, [⟨1, "Rougher", 6, 0.2, 1200⟩, ⟨2, "Finisher", 1, 0, 0⟩]⟩
    (job.safeZ.isFinite = true ∧ ∀ p ∈ work.points, (p.scale standard.scale).isFinite = true) ∧
      Waypoint.path (standard.generate work job) =
        [⟨0, 7.25⟩, ⟨0, 0⟩, ⟨0, 0⟩, ⟨-2.5, 5⟩, ⟨-2.5, 7.25⟩,
          ⟨-2.5, 7.25⟩, ⟨0, 0⟩, ⟨0, 0⟩, ⟨-2.5, 5⟩, ⟨-2.5, 7.25⟩] := by
  intro work job
  have height : job.safeZ.isFinite = true := by decide
  have points : ∀ p ∈ work.points, (p.scale standard.scale).isFinite = true := by decide +kernel
  refine ⟨⟨height, points⟩, (path_generate standard work job height points).1.trans ?_⟩
  decide +kernel

end Turning

end Turnery.Gcode
