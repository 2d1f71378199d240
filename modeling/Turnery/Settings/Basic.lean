import Turnery.Curve.Tessellation
import Turnery.Error
import Turnery.Job.Basic
import Turnery.Text.CharacterClass

/-!
# Settings

What the user can set, in three sections, and which settings make sense. `check_eq_none_iff` says
that settings are accepted exactly if none of the conditions is violated.
-/

namespace Turnery

/-- How drawings are imported. -/
structure ImportSettings where
  segments : Nat
  normalizerScript : Option String
  interpreters : List String
  timeoutSeconds : Nat
  explodeInserts : Bool
  deriving DecidableEq, Repr

/-- How programs are made. -/
structure GenerationSettings where
  feed : Float
  spindle : Float
  scale : Float
  safeZ : Float
  depthPerPass : Float
  units : Units

/-- How programs are played back. -/
structure SimulationSettings where
  baseIntervalMillis : Nat
  speed : Float

structure Settings where
  drawings : ImportSettings
  generation : GenerationSettings
  simulation : SimulationSettings

namespace Settings

/-- The settings of a user who has set nothing. -/
def standard : Settings where
  drawings := ⟨Tessellation.standardSegments, none, ["python3", "python", "py"], 120, true⟩
  generation := ⟨0.2, 1000, 1, 5, 0.5, .mm⟩
  simulation := ⟨20, 1⟩

/-- A condition on settings, with the setting and the reason to name where it is violated. -/
structure Condition where
  setting : String
  reason : String
  holds : Settings → Bool

def isPositive (x : Float) : Bool :=
  x.isFinite && 0 < x

def isName (s : String) : Bool :=
  !(Text.trim s.toList).isEmpty

/-- The conditions, in the order in which they are checked. -/
def conditions : List Condition :=
  [⟨"import.segments", "must be > 0", fun s => s.drawings.segments != 0⟩,
    ⟨"import.normalizer_timeout_secs", "must be > 0", fun s => s.drawings.timeoutSeconds != 0⟩,
    ⟨"import.interpreters", "names must not be empty", fun s => s.drawings.interpreters.all isName⟩,
    ⟨"generation.default_feed", "must be a finite number > 0",
      fun s => isPositive s.generation.feed⟩,
    ⟨"generation.default_spindle", "must be a finite number > 0",
      fun s => isPositive s.generation.spindle⟩,
    ⟨"generation.scale", "must be a finite number > 0", fun s => isPositive s.generation.scale⟩,
    ⟨"generation.safe_z", "must be finite", fun s => s.generation.safeZ.isFinite⟩,
    ⟨"generation.depth_per_pass", "must be > 0", fun s => isPositive s.generation.depthPerPass⟩,
    ⟨"simulation.base_interval_ms", "must be > 0", fun s => s.simulation.baseIntervalMillis != 0⟩,
    ⟨"simulation.default_speed", "must be > 0", fun s => isPositive s.simulation.speed⟩]

/-- The complaint about the first condition that is violated. -/
def check (s : Settings) : Option SettingsError :=
  (conditions.find? fun c => !c.holds s).map fun c => .invalidValue c.setting c.reason

def validate (s : Settings) : Except SettingsError Unit :=
  match s.check with
  | none => .ok ()
  | some e => .error e

theorem check_eq_none_iff (s : Settings) : s.check = none ↔ ∀ c ∈ conditions, c.holds s = true := by
  simp [check, List.find?_eq_none]

end Settings

end Turnery
