import Turnery.Geometry.Linework
import Turnery.Gcode.Line

/-!
# Turning programs

A turning program runs every polyline once with every tool of the job: the tool moves above the
first point, cuts through all points and retracts to the safe height. The spindle turns only between
the tool changes.
-/

namespace Turnery.Gcode

/-- What a tool falls back on, and the scale from the drawing to the machine. -/
structure Turning where
  feed : Float
  spindle : Float
  scale : Float

namespace Turning

def standard : Turning := ⟨0.2, 1000, 1⟩

/-- What is given for one program in place of the parameters. -/
structure Adjustment where
  feed : Option Float
  spindle : Option Float
  scale : Option Float

def adjust (turning : Turning) (given : Adjustment) : Turning where
  feed := given.feed.getD turning.feed
  spindle := given.spindle.getD turning.spindle
  scale := given.scale.getD turning.scale

/-- The tool's own feed where it is positive. -/
def feedOf (turning : Turning) (tool : Tool) : Float :=
  if 0 < tool.feed then tool.feed else turning.feed

/-- The tool's own spindle speed where it is positive. -/
def spindleOf (turning : Turning) (tool : Tool) : Float :=
  if 0 < tool.spindle then tool.spindle else turning.spindle

/-- One pass along a polyline; none along an empty one. -/
def pass (turning : Turning) (safeZ feed : Float) (line : Polyline Float) : List Line :=
  match line.points.map (Point.scale turning.scale) with
  | [] => []
  | first :: others =>
    .rapid first :: (first :: others).map (Line.cut · feed) ++ [.rapidHeight safeZ]

/-- The part of a program that belongs to one tool. -/
def toolSection (turning : Turning) (work : Linework Float) (safeZ : Float) (tool : Tool) :
    List Line :=
  [.toolSelect tool, .toolChange, .spindleSpeed (turning.spindleOf tool), .spindleOn,
    .rapidHeight safeZ] ++
    work.polylines.flatMap (turning.pass safeZ (turning.feedOf tool)) ++ [.spindleOff]

/-- The remarks and modes at the start of a program. -/
def header (work : Linework Float) (job : Job) : List Line :=
  [.remark "LatheKit turning toolpath",
    .remark ("Polylines: " ++ String.ofList (Number.digits work.polylineCount) ++
      ", Tools: " ++ String.ofList (Number.digits job.tools.length)),
    .unitMode job.units, .absoluteMode]

def program (turning : Turning) (work : Linework Float) (job : Job) : List Line :=
  header work job ++ job.tools.flatMap (turning.toolSection work job.safeZ) ++ [.endOfProgram]

/-- The text of the program, each line ended by a line feed. -/
def generate (turning : Turning) (work : Linework Float) (job : Job) : String :=
  String.join ((turning.program work job).map fun line => line.text ++ "\n")

end Turning

end Turnery.Gcode
