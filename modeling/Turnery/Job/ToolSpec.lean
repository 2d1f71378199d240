import Turnery.Job.Basic
import Turnery.Number.Literal
import Turnery.Text.CharacterClass

/-!
# Tool specifications

A tool is specified as `NUMBER[:NAME[:DIAMETER[:FEED[:SPINDLE]]]]`. Blanks around a field do not
count, and a blank field is an absent one.
-/

namespace Turnery.ToolSpec

/-- The fields of a specification that hold a quantity. -/
inductive Quantity where
  | diameter
  | feed
  | spindle
  deriving DecidableEq, Repr

def Quantity.name : Quantity → String
  | diameter => "diameter"
  | feed => "feed"
  | spindle => "spindle"

/-- Why a text specifies no tool. -/
inductive Error where
  | empty
  | invalidNumber (cause : Number.IntegerError)
  | invalidQuantity (field : Quantity)
  | tooManyFields
  deriving DecidableEq, Repr

/-- The complaint about a specification. -/
def Error.message (spec : String) : Error → String
  | empty => "empty tool spec '" ++ spec ++ "'"
  | invalidNumber cause => "invalid tool number in '" ++ spec ++ "': " ++ cause.message
  | invalidQuantity field =>
    "invalid " ++ field.name ++ " in tool spec '" ++ spec ++ "': invalid float literal"
  | tooManyFields => "too many fields in tool spec '" ++ spec ++ "'"

/-- The fields between the colons, without blanks around them. -/
def fields (spec : List Char) : List (List Char) :=
  (spec.splitOn ':').map Text.trim

def maxNumber : Nat := Nat.pow 2 32 - 1

/-- A quantity; a blank field stands for zero. -/
def readQuantity (field : Quantity) (text : List Char) : Except Error Float :=
  if text.isEmpty then .ok 0
  else
    match Number.float? text with
    | some x => .ok x
    | none => .error (.invalidQuantity field)

def readNumber (text : List Char) : Except Error Nat :=
  if text.isEmpty then .error .empty
  else
    match Number.readNat maxNumber text with
    | .ok n => .ok n
    | .error cause => .error (.invalidNumber cause)

/-- The name given, or one made from the number. -/
def toolName (number : Nat) (text : List Char) : String :=
  if text.isEmpty then "Tool " ++ String.ofList (Number.digits number) else String.ofList text

/-- The tool of a list of fields; an absent field reads as a blank one. -/
def ofFields (fs : List (List Char)) : Except Error Tool := do
  let number ← readNumber (fs.getD 0 [])
  let diameter ← readQuantity .diameter (fs.getD 2 [])
  let feed ← readQuantity .feed (fs.getD 3 [])
  let spindle ← readQuantity .spindle (fs.getD 4 [])
  if fs.length ≤ 5 then
    .ok ⟨number, toolName number (fs.getD 1 []), diameter, feed, spindle⟩
  else .error .tooManyFields

def parse (spec : String) : Except Error Tool :=
  ofFields (fields spec.toList)

end Turnery.ToolSpec
