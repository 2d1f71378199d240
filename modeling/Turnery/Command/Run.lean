import Turnery.Command.Failure
import Turnery.Command.Request
import Turnery.Gcode.Waypoint
import Turnery.Geometry.Bounds
import Turnery.Number.Digits
import Turnery.Playback.Interval
import Turnery.Settings.Derived
import Turnery.Settings.File

/-!
# Running a command line

A command line is run in a workspace. What it shows is a list of texts; a replay shows one text per
position, with a time between each two.
-/

namespace Turnery.Command

open Turnery.Files

/-- The texts that are shown, and the nanoseconds between each two. -/
structure Display where
  texts : List String
  interval : Nat

namespace Display

def ofTexts (texts : List String) : Display := ⟨texts, 0⟩

def ofLines (lines : List String) : Display := ofTexts (lines.map (· ++ "\n"))

def text (display : Display) : String :=
  String.join display.texts

end Display

/-- What a command line comes to. -/
structure Outcome where
  status : Nat
  display : Display
  complaint : String
  workspace : Workspace

def versionLine : String := "lathekit 0.4.0"

def usage : String :=
  "Usage: lathekit [-c FILE] [--log-json] COMMAND\n" ++
  "  import [-v] DRAWING\n" ++
  "  generate [-o FILE] [-t SPEC]... [--feed F] [--spindle S] [--scale K] DRAWING\n" ++
  "  simulate [-s SPEED] GCODE\n" ++
  "  config [--init]\n" ++
  "A SPEC is NUMBER[:NAME[:DIAMETER[:FEED[:SPINDLE]]]].\n"

/-- What a task has shown, why it failed if it did, and the workspace it leaves. -/
structure TaskResult where
  display : Display
  failure : Option Failure
  workspace : Workspace

namespace TaskResult

def done (display : Display) (w : Workspace) : TaskResult := ⟨display, none, w⟩

/-- A task that failed before it showed anything. -/
def failed (failure : Failure) (w : Workspace) : TaskResult := ⟨.ofTexts [], some failure, w⟩

end TaskResult

def pointText (p : Point Float) : String :=
  "(" ++ Gcode.number p.x ++ ", " ++ Gcode.number p.y ++ ")"

def boundsLine (b : Bounds Float) : String :=
  "Bounds: " ++ pointText b.min ++ " - " ++ pointText b.max ++
    "  [" ++ Gcode.number b.width ++ " x " ++ Gcode.number b.height ++ "]"

def polylineLine (line : Polyline Float) (index : Nat) : String :=
  "#" ++ Number.natText index ++ ": " ++ " ".intercalate (line.points.map pointText)

def tierText : Option Import.Tier → String
  | some tier => tier.name
  | none => "none (no geometry found)"

def reportLines (report : Import.Report) (listPoints : Bool) : List String :=
  let work := report.linework
  ["Decoded by: " ++ tierText report.tier, "Polylines: " ++ Number.natText work.polylineCount,
    "Points: " ++ Number.natText work.pointCount, "Path length: " ++ Gcode.number work.length] ++
  (work.bounds.map boundsLine).toList ++
  (report.artifacts.json.map ("Normalizer output: " ++ ·)).toList ++
  (report.artifacts.log.map ("Normalizer log: " ++ ·)).toList ++
  (if listPoints then work.polylines.zipIdx.map fun (line, index) => polylineLine line index
    else [])

def importFailure (drawing : String) (e : ImportError) : Failure :=
  .ofError ("Failed to import " ++ drawing) (.importing e)

def describe (programs : Programs) (s : Settings) (drawing : String) (listPoints : Bool)
    (w : Workspace) :
    TaskResult :=
  match s.importDrawing programs drawing w with
  | (.error e, w) => .failed (importFailure drawing e) w
  | (.ok report, w) => .done (.ofLines (reportLines report listPoints)) w

/-- The tools of a command line that names none. -/
def standardSpecs : List String := ["1:Turning"]

/-- The path leads to where the program shows what it has to show. -/
def isDisplay (w : Workspace) (path : String) : Bool :=
  w.find? path matches .ok (.device (.channel 1))

/-- Shows a program or writes it to a file. -/
def deliver (program : String) (output : Option String) (w : Workspace) : TaskResult :=
  match output with
  | none => .done (.ofTexts [program]) w
  | some path =>
    match w.writeText path program with
    | .error e => .failed ⟨"Failed to write " ++ path, [e.message]⟩ w
    | .ok after => .done (.ofTexts (if isDisplay w path then [program] else [])) after

def generate (programs : Programs) (s : Settings) (drawing : String) (output : Option String)
    (specs : List String) (given : Gcode.Turning.Adjustment) (w : Workspace) : TaskResult :=
  match s.importDrawing programs drawing w with
  | (.error e, w) => .failed (importFailure drawing e) w
  | (.ok report, w) =>
    match Settings.readTools (if specs.isEmpty then standardSpecs else specs) with
    | .error e => .failed (.ofError "Invalid --tool" e) w
    | .ok tools => deliver (s.program given report.linework tools) output w

def waypointLine (waypoint : Gcode.Waypoint) : String :=
  "X" ++ Gcode.number waypoint.x ++ " Z" ++ Gcode.number waypoint.z ++ "\n"

def simulate (s : Settings) (program : String) (speed : Option Float) (w : Workspace) :
    TaskResult :=
  match w.readText program with
  | .error e => .failed ⟨"Failed to read " ++ program, [e.message]⟩ w
  | .ok text =>
    match Gcode.Waypoint.path text with
    | [] => .failed ⟨program ++ " contains no G0/G1 motion", []⟩ w
    | path =>
      let base := s.simulation.baseIntervalMillis * Playback.nanosPerMilli
      .done ⟨path.map waypointLine, Playback.intervalFor base (speed.getD s.simulation.speed)⟩ w

/-- Shows the path of the settings file and then the settings as TOML, which has no large
integers. -/
def showSettings (s : Settings) (path : String) (w : Workspace) : TaskResult :=
  let head := "# " ++ path ++ "\n"
  match Settings.Format.toml.write? s.toDatum with
  | none =>
    ⟨.ofTexts [head], some ⟨"Failed to render config", ["out-of-range value for u64 type"]⟩, w⟩
  | some text => .done (.ofTexts [head, text]) w

/-- Writes the standard settings to a file, unless something is there. -/
def createSettings (path : String) (w : Workspace) : TaskResult :=
  if w.contains path then .done (.ofLines ["Config already exists at " ++ path]) w
  else
    match Settings.save w path .standard with
    | .error e => .failed (.ofError ("Failed to write " ++ path) e) w
    | .ok w => .done (.ofLines ["Wrote default config to " ++ path]) w

def withSettingsPath (file : Option String) (w : Workspace) (task : String → TaskResult) :
    TaskResult :=
  match file.or (Settings.defaultPath? w) with
  | none => .failed ⟨"No platform config directory", []⟩ w
  | some path => task path

def perform (programs : Programs) (s : Settings) (request : Request) (w : Workspace) : TaskResult :=
  match request.task with
  | .describe drawing listPoints => describe programs s drawing listPoints w
  | .generate drawing output specs given => generate programs s drawing output specs given w
  | .simulate program speed => simulate s program speed w
  | .showSettings => withSettingsPath request.settingsFile w fun path => showSettings s path w
  | .createSettings => withSettingsPath request.settingsFile w fun path => createSettings path w

/-- Fulfils a request; the settings are loaded first. -/
def fulfil (programs : Programs) (request : Request) (w : Workspace) : TaskResult :=
  match Settings.loadOrStandard w request.settingsFile with
  | .error e => .failed (.ofError "Failed to load configuration" e) w
  | .ok s => perform programs s request w

/-- Runs a command line. -/
def run (programs : Programs) (words : List String) (w : Workspace) : Outcome :=
  match Request.parse words with
  | .error .version => ⟨0, .ofLines [versionLine], "", w⟩
  | .error .help => ⟨0, .ofTexts [], usage, w⟩
  | .error .misuse => ⟨2, .ofTexts [], usage, w⟩
  | .ok request =>
    let result := fulfil programs request w
    match result.failure with
    | none => ⟨0, result.display, "", result.workspace⟩
    | some failure => ⟨1, result.display, failure.text, result.workspace⟩

end Turnery.Command
