import Turnery.Error
import Turnery.Geometry.Linework

/-!
# Tiers

A drawing file is read in one of four ways. SVG files have one reader; the three readers of DXF
files form tiers that are tried in turn. A reader may leave artifacts behind, whether it succeeds or
not.
-/

namespace Turnery.Import

/-- The ways to read a drawing. -/
inductive Tier where
  | svg
  | nativeDxf
  | normalizer
  | asciiDxf
  deriving DecidableEq, Repr

def Tier.name : Tier → String
  | svg => "svg"
  | nativeDxf => "native-dxf"
  | normalizer => "normalizer"
  | asciiDxf => "ascii-dxf"

/-- The files that a reader has left for the user to look at. -/
structure Artifacts where
  json : Option String
  log : Option String
  deriving DecidableEq, Repr

namespace Artifacts

/-- No files. -/
def none : Artifacts := ⟨.none, .none⟩

def isEmpty (a : Artifacts) : Bool :=
  a.json.isNone && a.log.isNone

end Artifacts

/-- What a reader comes to: linework or an error, the artifacts known by then, and the state it
leaves. -/
structure Reading (σ : Type) where
  result : Except ImportError (Linework Float)
  artifacts : Artifacts
  state : σ

/-- A reader of drawing files; it is given a path, the artifacts left so far and a state. -/
structure Reader (σ : Type) where
  tier : Tier
  read : String → Artifacts → σ → Reading σ

end Turnery.Import
