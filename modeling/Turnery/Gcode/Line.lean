import Turnery.Geometry.Point
import Turnery.Job.Basic
import Turnery.Number.Fixed

/-!
# Lines of a lathe program

The kinds of lines that a program is made of, and their text. The abscissa of a point becomes the
`X` word of a line and its ordinate the `Z` word.
-/

namespace Turnery.Gcode

/-- A number word has at most four decimals. -/
def number (x : Float) : String :=
  Number.trimmedDecimal 4 x

/-- A line of a lathe program. -/
inductive Line where
  | remark (text : String)
  | unitMode (units : Units)
  | absoluteMode
  | toolSelect (tool : Tool)
  | toolChange
  | spindleSpeed (rpm : Float)
  | spindleOn
  /-- A rapid move to a height, across kept. -/
  | rapidHeight (z : Float)
  | rapid (target : Point Float)
  | cut (target : Point Float) (feed : Float)
  | spindleOff
  | endOfProgram

/-- The `X` and `Z` words of a point. -/
def positionWords (p : Point Float) : String :=
  "X" ++ number p.x ++ " Z" ++ number p.y

/-- The text of a line, without its end. -/
def Line.text : Line → String
  | remark text => "; " ++ text
  | unitMode units => units.word
  | absoluteMode => "G90"
  | toolSelect tool => tool.word
  | toolChange => "M6"
  | spindleSpeed rpm => "S" ++ Number.wholeDecimal rpm
  | spindleOn => "M3"
  | rapidHeight z => "G0 Z" ++ number z
  | rapid target => "G0 " ++ positionWords target
  | cut target feed => "G1 " ++ positionWords target ++ " F" ++ number feed
  | spindleOff => "M5"
  | endOfProgram => "M30"

end Turnery.Gcode
