import Turnery.Number.Digits
import Turnery.Text.CharacterClass

/-!
# Jobs

A job says in which units, above which height and with which tools a drawing is turned. It is
measured in millimetres or inches; the names of the units are read without regard to case and to
blanks around them. A tool sits at a numbered place of the turret. A feed or a spindle speed of a
tool that is not positive means that the default applies.
-/

namespace Turnery

/-- The unit in which a job is measured. -/
inductive Units where
  | mm
  | inch
  deriving DecidableEq, Repr

namespace Units

/-- The program word that selects the unit. -/
def word : Units → String
  | mm => "G21"
  | inch => "G20"

def name : Units → String
  | mm => "mm"
  | inch => "inch"

/-- The unit of a name, or of one of its customary variants. -/
def ofName? (text : String) : Option Units :=
  match String.ofList ((Text.trim text.toList).map Char.toLower) with
  | "mm" | "metric" | "millimeter" | "millimeters" => some mm
  | "inch" | "in" | "imperial" | "inches" => some inch
  | _ => none

/-- The complaint about a name that is none of them. -/
def unknownMessage (text : String) : String :=
  "Unknown units: " ++ text

end Units

/-- A cutting tool on the turret. -/
structure Tool where
  number : Nat
  name : String
  diameter : Float
  feed : Float
  spindle : Float

/-- The word that selects the tool; the number has at least two digits. -/
def Tool.word (tool : Tool) : String :=
  let ds := Number.digits tool.number
  "T" ++ String.ofList (List.replicate (2 - ds.length) '0' ++ ds)

structure Job where
  units : Units
  /-- The height to which the tool retracts. -/
  safeZ : Float
  /-- The depth of one pass; a program makes a single pass and does not use it. -/
  depthPerPass : Float
  /-- The tools in the order in which they are used. -/
  tools : List Tool

namespace Job

/-- A metric job without tools. -/
def standard : Job :=
  ⟨.mm, 5, 0.5, []⟩

/-- The numbers seen so far and the suspicious ones among them. -/
structure Census where
  seen : List Nat
  flagged : List Nat

/-- One more number: it is suspicious if it is zero or was seen before, and is flagged once. -/
def Census.add (census : Census) (number : Nat) : Census where
  seen := number :: census.seen
  flagged :=
    if (number == 0 || census.seen.contains number) && !census.flagged.contains number then
      census.flagged ++ [number]
    else census.flagged

/-- The numbers that are zero or occur more than once, in the order in which they become
suspicious. -/
def suspiciousNumbers (numbers : List Nat) : List Nat :=
  (numbers.foldl Census.add ⟨[], []⟩).flagged

def suspiciousToolNumbers (job : Job) : List Nat :=
  suspiciousNumbers (job.tools.map Tool.number)

end Job

end Turnery
