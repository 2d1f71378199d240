import Turnery.Datum.Schema
import Turnery.Settings.Basic

/-!
# The layout of settings files

The names under which settings are kept, and the order of the sections and of the settings within
each.
-/

namespace Turnery.Settings

/-- A field that is read and written without regard to the format. -/
def plainField {σ α : Type} (name : String) (read? : Datum → Option α) (write : α → Datum)
    (get : σ → α) (set : α → σ → σ) : Field σ where
  name := name
  get s := write (get s)
  set _ d s := (read? d).map fun x => set x s

/-- A field that holds a structure of its own. -/
def sectionField {σ τ : Type} (name : String) (schema : Schema τ) (standard : τ) (get : σ → τ)
    (set : τ → σ → σ) : Field σ where
  name := name
  get s := schema.toDatum (get s)
  set dialect d s := (schema.read? dialect standard d).map fun x => set x s

def optionalText? : Datum → Option (Option String)
  | .null => some none
  | .text s => some (some s)
  | _ => none

def ofOptionalText : Option String → Datum
  | none => .null
  | some s => .text s

def ofNat (n : Nat) : Datum := .integer n

def unitsNamed? : String → Option Units
  | "mm" => some .mm
  | "inch" => some .inch
  | _ => none

def units? (dialect : Dialect) : Datum → Option Units
  | .text s => unitsNamed? s
  | .record [(some name, value)] => if dialect.isUnit value then unitsNamed? name else none
  | _ => none

def importSchema : Schema ImportSettings :=
  [plainField "segments" Datum.nat? ofNat ImportSettings.segments
      fun x s => { s with segments := x },
    plainField "normalizer_script" optionalText? ofOptionalText ImportSettings.normalizerScript
      fun x s => { s with normalizerScript := x },
    plainField "interpreters" Datum.texts? (fun names => .list (names.map .text))
      ImportSettings.interpreters
      fun x s => { s with interpreters := x },
    plainField "normalizer_timeout_secs" Datum.nat? ofNat ImportSettings.timeoutSeconds
      fun x s => { s with timeoutSeconds := x },
    plainField "explode_inserts" Datum.bool? .bool ImportSettings.explodeInserts
      fun x s => { s with explodeInserts := x }]

def unitsField : Field GenerationSettings where
  name := "units"
  get s := .text s.units.name
  set dialect d s := (units? dialect d).map fun units => { s with units }

def generationSchema : Schema GenerationSettings :=
  [plainField "default_feed" Datum.real? .real GenerationSettings.feed
      fun x s => { s with feed := x },
    plainField "default_spindle" Datum.real? .real GenerationSettings.spindle
      fun x s => { s with spindle := x },
    plainField "scale" Datum.real? .real GenerationSettings.scale
      fun x s => { s with scale := x },
    plainField "safe_z" Datum.real? .real GenerationSettings.safeZ
      fun x s => { s with safeZ := x },
    plainField "depth_per_pass" Datum.real? .real GenerationSettings.depthPerPass
      fun x s => { s with depthPerPass := x },
    unitsField]

def simulationSchema : Schema SimulationSettings :=
  [plainField "base_interval_ms" Datum.nat? ofNat SimulationSettings.baseIntervalMillis
      fun x s => { s with baseIntervalMillis := x },
    plainField "default_speed" Datum.real? .real SimulationSettings.speed
      fun x s => { s with speed := x }]

def schema : Schema Settings :=
  [sectionField "import" importSchema standard.drawings Settings.drawings
      fun x s => { s with drawings := x },
    sectionField "generation" generationSchema standard.generation Settings.generation
      fun x s => { s with generation := x },
    sectionField "simulation" simulationSchema standard.simulation Settings.simulation
      fun x s => { s with simulation := x }]

def toDatum (s : Settings) : Datum :=
  schema.toDatum s

/-- The settings that data give; the rest is standard. -/
def ofDatum? (dialect : Dialect) (d : Datum) : Option Settings :=
  schema.read? dialect standard d

end Turnery.Settings
