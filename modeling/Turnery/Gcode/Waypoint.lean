import Turnery.Number.Literal
import Turnery.Text.CharacterClass
import Turnery.Text.Decimal
import Turnery.Text.Lines

/-!
# Waypoints of a program

The motion lines of a program are its `G0` and `G1` lines. Each reaches one waypoint; an axis
without a readable word keeps its value. All other lines, and whatever follows a semicolon or an
opening parenthesis, have no influence.
-/

namespace Turnery.Gcode

/-- A position of the tool in machine coordinates. -/
structure Waypoint where
  x : Float
  z : Float
  deriving DecidableEq

namespace Waypoint

def origin : Waypoint := ⟨0, 0⟩

/-- The line in upper case and without its comment. -/
def command (line : List Char) : List Char :=
  (line.map Char.toUpper).takeWhile fun c => c != ';' && c != '('

def endsNumber : List Char → Bool
  | [] => true
  | c :: _ => !Text.isDecimalDigit c

/-- The number after the letter selects a rapid move or a cut; one zero may stand in front. -/
def selectsMotion : List Char → Bool
  | '0' :: '0' :: rest => endsNumber rest
  | '0' :: '1' :: rest => endsNumber rest
  | '0' :: rest => endsNumber rest
  | '1' :: rest => endsNumber rest
  | _ => false

def isMotion (command : List Char) : Bool :=
  match Text.trimStart command with
  | 'G' :: rest => selectsMotion rest
  | _ => false

/-- The decimal after the first letter of an axis that has one behind it. -/
def axisLexeme? (axis : Char) : List Char → Option (List Char)
  | [] => none
  | c :: rest =>
    if c == axis then
      match Text.takeDecimal? (Text.trimStart rest) with
      | some (lexeme, _) => some lexeme
      | none => axisLexeme? axis rest
    else axisLexeme? axis rest

def axisValue? (axis : Char) (command : List Char) : Option Float :=
  (axisLexeme? axis command).bind Number.float?

/-- The position after a motion command. -/
def move (position : Waypoint) (command : List Char) : Waypoint where
  x := (axisValue? 'X' command).getD position.x
  z := (axisValue? 'Z' command).getD position.z

/-- The waypoints of the lines of a program, from a position on. -/
def pathFrom (position : Waypoint) : List (List Char) → List Waypoint
  | [] => []
  | line :: rest =>
    let command := command line
    if isMotion command then
      let next := position.move command
      next :: pathFrom next rest
    else pathFrom position rest

/-- The waypoints of a program; the tool starts at the origin. -/
def path (program : String) : List Waypoint :=
  pathFrom origin (Text.lines program.toList)

end Waypoint

end Turnery.Gcode
