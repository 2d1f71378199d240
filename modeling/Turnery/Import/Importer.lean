import Turnery.Files.Path
import Turnery.Import.Tier

/-!
# Importing drawings

An importer sends a file to the reader of its format. For DXF files the tiers are tried in order,
and the first that finds something wins; errors of readers are not passed on.
`Importer.importFile_fails_iff` says when an import fails.
-/

namespace Turnery.Import

structure Report where
  linework : Linework Float
  /-- The tier that found it; absent if nothing was found. -/
  tier : Option Tier
  artifacts : Artifacts

/-- The readers in use and the artifacts of the latest DXF import. -/
structure Importer (σ : Type) where
  svg : Reader σ
  tiers : List (Reader σ)
  latest : Artifacts

namespace Importer

variable {σ : Type}

def ofReaders (svg : Reader σ) (tiers : List (Reader σ)) : Importer σ :=
  ⟨svg, tiers, .none⟩

def found? (reading : Reading σ) : Option (Linework Float) :=
  match reading.result with
  | .ok work => if work.isEmpty then none else some work
  | .error _ => none

/-- What trying tiers comes to. -/
structure Trial (σ : Type) where
  found : Option (Linework Float × Tier)
  artifacts : Artifacts
  state : σ

/-- Tries tiers in order until one finds something. -/
def tryTiers (path : String) : List (Reader σ) → Artifacts → σ → Trial σ
  | [], artifacts, state => ⟨none, artifacts, state⟩
  | reader :: rest, artifacts, state =>
    let reading := reader.read path artifacts state
    match found? reading with
    | some work => ⟨some (work, reader.tier), reading.artifacts, reading.state⟩
    | none => tryTiers path rest reading.artifacts reading.state

/-- Imports an SVG file; a failed reading counts as empty linework. -/
def importSvg (importer : Importer σ) (path : String) (state : σ) : Report × σ :=
  let reading := importer.svg.read path .none state
  let work := match reading.result with
    | .ok work => work
    | .error _ => .empty
  (⟨work, if work.isEmpty then none else some importer.svg.tier, reading.artifacts⟩, reading.state)

def importDxf (importer : Importer σ) (path : String) (state : σ) : Report × σ :=
  let trial := tryTiers path importer.tiers .none state
  match trial.found with
  | some (work, tier) => (⟨work, some tier, trial.artifacts⟩, trial.state)
  | none => (⟨.empty, none, trial.artifacts⟩, trial.state)

inductive Format where
  | svg
  | dxf
  deriving DecidableEq, Repr

/-- The format of a path, told by its extension in any case. -/
def Format.ofPath? (path : String) : Option Format :=
  match Files.Path.lowerExtension path with
  | "svg" => some svg
  | "dxf" => some dxf
  | _ => none

/-- Imports a file: the report, the importer afterwards and the state afterwards. Whether a path
leads to a file is asked of the state. -/
def importFile (importer : Importer σ) (isFile : String → σ → Bool) (path : String) (state : σ) :
    Except ImportError Report × Importer σ × σ :=
  if isFile path state then
    match Format.ofPath? path with
    | some .svg =>
      let (report, state) := importer.importSvg path state
      (.ok report, importer, state)
    | some .dxf =>
      let (report, state) := importer.importDxf path state
      (.ok report, { importer with latest := report.artifacts }, state)
    | none => (.error (.unsupportedFormat (Files.Path.lowerExtension path)), importer, state)
  else (.error (.notFound path), importer, state)

/-- An import fails exactly if there is no such file or the file has no known format. -/
theorem importFile_fails_iff (importer : Importer σ) (isFile : String → σ → Bool) (path : String)
    (state : σ) :
    (∃ e, (importer.importFile isFile path state).1 = .error e) ↔
      isFile path state = false ∨ Format.ofPath? path = none := by
  unfold importFile
  cases hf : isFile path state with
  | false => simp
  | true =>
    cases hp : Format.ofPath? path with
    | none => simp
    | some format => cases format <;> simp

end Importer

end Turnery.Import
