import Turnery.Curve.Tessellation
import Turnery.Geometry.Linework
import Turnery.Json.Reader
import Turnery.Text.CharacterClass

/-!
# Normalised drawings

A normaliser writes a drawing as a JSON array of records for polylines, circles and arcs. The text
as a whole has to be such an array; a record that is malformed or of another kind contributes
nothing.
-/

namespace Turnery.Import.Record

/-- Why a text is no normalised drawing. -/
inductive Failure where
  | empty
  | invalidJson (text : String)
  | notAnArray
  deriving DecidableEq, Repr

/-- The reason in words. What is wrong with a text that is no JSON is for a reader of JSON to say;
nothing is said without one. -/
def Failure.message (e : Failure) (complaint : String → String := fun _ => "") : String :=
  match e with
  | empty => "normalizer output is empty"
  | invalidJson text => complaint text
  | notAnArray => "expected a JSON array of records"

/-- A finite number, written as a number or as a string that holds a numeral. -/
def number? (value : Json.Value) : Option Float :=
  let x := match value with
    | .number lexeme => (Json.Lexeme.value? lexeme).map Json.NumberValue.toFloat
    | .string (some text) => Number.float? (Text.trim text.toList)
    | _ => none
  x.filter Float.isFinite

def field? (record : Json.Value) (name : String) : Option Float :=
  (record.member? name).bind number?

/-- A point is an array of which the first two items are numbers. -/
def point? : Json.Value → Option (Point Float)
  | .array (x :: y :: _) => do
    let x ← number? x
    let y ← number? y
    some ⟨x, y⟩
  | _ => none

/-- A radius has to be positive. -/
def radius? (record : Json.Value) : Option Float :=
  (field? record "r").filter fun r => decide (0 < r)

def center? (record : Json.Value) : Option (Point Float) := do
  let x ← field? record "cx"
  let y ← field? record "cy"
  some ⟨x, y⟩

def polyline? (tess : Tessellation) (record : Json.Value) : Option (Polyline Float) := do
  let kind ← (record.member? "type").bind Json.Value.text?
  match String.ofList (kind.toList.map Char.toLower) with
  | "polyline" => do
    let items ← (record.member? "points").bind Json.Value.items?
    let points ← items.mapM point?
    some ⟨points⟩
  | "circle" => do
    let center ← center? record
    let radius ← radius? record
    some (tess.circle center radius)
  | "arc" => do
    let center ← center? record
    let radius ← radius? record
    let startAngle ← field? record "start"
    let endAngle ← field? record "end"
    some (tess.arc center radius startAngle endAngle)
  | _ => none

def linework (tess : Tessellation) (records : List Json.Value) : Linework Float :=
  Linework.ofList (records.filterMap (polyline? tess))

/-- The linework of a text. -/
def read (tess : Tessellation) (text : String) : Except Failure (Linework Float) :=
  if (Text.trim text.toList).isEmpty then .error .empty
  else
    match Json.Reader.parse? text with
    | none => .error (.invalidJson text)
    | some value =>
      if !value.isSound Json.Value.maxDepth then .error (.invalidJson text)
      else
        match value with
        | .array records => .ok (linework tess records)
        | _ => .error .notAnArray

end Turnery.Import.Record
