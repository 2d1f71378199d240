import Turnery.Datum.Basic

/-!
# Schemas

A schema lists the fields of a structure in order, each with the way to read and to write it. A
structure is read from a record, in which fields may be missing and other names are passed over, or
from a list of its fields from the first on. What is missing keeps its standard value.
-/

namespace Turnery

/-- What depends on the format of the file. -/
structure Dialect where
  /-- Values at the end of a list that no field takes are passed over. -/
  tolerant : Bool
  /-- The value says nothing besides the name under which it stands. -/
  isUnit : Datum → Bool

structure Field (σ : Type) where
  name : String
  /-- The value written for the field. -/
  get : σ → Datum
  /-- The structure with the field read from a value. -/
  set : Dialect → Datum → σ → Option σ

/-- The fields of a structure in order. -/
abbrev Schema (σ : Type) := List (Field σ)

namespace Schema

variable {σ : Type}

/-- A field read from the values of its name, of which there may be one. -/
def readField (dialect : Dialect) (field : Field σ) (values : List Datum) (s : σ) : Option σ :=
  match values with
  | [] => some s
  | [value] => field.set dialect value s
  | _ => none

def readRecord (dialect : Dialect) (schema : Schema σ) (members : List (Option String × Datum))
    (s : σ) :
    Option σ :=
  if Datum.namesReadable members then
    schema.foldlM (fun s field => readField dialect field (Datum.valuesOf field.name members) s) s
  else none

/-- The structure read from a list of its fields, and the values left. -/
def readList (dialect : Dialect) : Schema σ → List Datum → σ → Option (σ × List Datum)
  | [], values, s => some (s, values)
  | _, [], s => some (s, [])
  | field :: schema, value :: values, s => do
    let s ← field.set dialect value s
    readList dialect schema values s

/-- The structure read from a value; what the value does not give is as in another structure. -/
def read? (dialect : Dialect) (schema : Schema σ) (s : σ) : Datum → Option σ
  | .record members => readRecord dialect schema members s
  | .list values =>
    match readList dialect schema values s with
    | none => none
    | some (s, left) => if dialect.tolerant || left.isEmpty then some s else none
  | _ => none

def toDatum (schema : Schema σ) (s : σ) : Datum :=
  .record (schema.map fun field => (some field.name, field.get s))

end Schema

end Turnery
