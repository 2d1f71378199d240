import Turnery.Files.Program
import Turnery.Files.UniqueName
import Turnery.Import.Record
import Turnery.Import.Tier

/-!
# The normalizer

The normalizer is a script outside the library that turns a drawing into records. It is looked for
in several places, run by the first interpreter that can be started, and given the path of the file
to write. Every run leaves a log, whatever comes of it.
-/

namespace Turnery.Import

open Turnery.Files

/-- How the normalizer is found and run. -/
structure Normalizer where
  /-- The environment variable that may name the script. -/
  environmentName : String
  /-- The script named in the settings. -/
  script : Option String
  /-- Where the script lies from the program's directory, one above it, or the working directory. -/
  relativeScript : String
  interpreters : List String
  timeoutMillis : Nat
  segments : Nat
  explodeInserts : Bool
  /-- Where the records and the log are written. -/
  artifactDirectory : String
  /-- What a reader of JSON says about a text that it refuses. -/
  complaint : String → String := fun _ => ""

namespace Normalizer

def temporaryDirectory (w : Workspace) : String :=
  (w.valueOf? "TMPDIR").getD "/tmp"

def standard (w : Workspace) : Normalizer where
  environmentName := "LATHEKIT_NORMALIZER"
  script := none
  relativeScript := "tools/python/ezdxf_normalize.py"
  interpreters := ["python3", "python", "py"]
  timeoutMillis := 120000
  segments := Tessellation.standardSegments
  explodeInserts := true
  artifactDirectory := temporaryDirectory w

/-- How many directories upwards from the program's the script is looked for, that one included. -/
def ancestorLevels : Nat := 8

/-- The places of the script that do not depend on settings. -/
def relativeCandidates (n : Normalizer) (w : Workspace) : List String :=
  let above := match w.programPlace with
    | some place => (Path.ancestors place).take ancestorLevels
    | none => []
  (above ++ [w.home]).map fun place => Path.join (Path.ofSteps place) n.relativeScript

/-- Where the script may be, best first. -/
def candidates (n : Normalizer) (w : Workspace) : List String :=
  (w.valueOf? n.environmentName).toList ++ n.script.toList ++ n.relativeCandidates w

/-- The script: the first candidate that is a file. -/
def script? (n : Normalizer) (w : Workspace) : Option String :=
  (n.candidates w).find? w.isFile

/-- The first interpreter that can be started. -/
def interpreter? (n : Normalizer) (programs : Programs) (w : Workspace) : Option String :=
  n.interpreters.find? (programs.canStart w)

def arguments (n : Normalizer) (script drawing output : String) : List String :=
  [script, drawing, output, "--approx-segs", Number.natText n.segments] ++
    (if n.explodeInserts then ["--explode-inserts"] else []) ++ ["--verbose"]

/-- The path of an artifact with a unique name. -/
def artifactPath (n : Normalizer) (identifier ending : String) : String :=
  Path.join n.artifactDirectory ("lathekit-normalize-" ++ identifier ++ ending)

def streamText (name : String) : Option (List UInt8) → String
  | some bytes => String.ofList (Text.Utf8.decodeTolerant bytes)
  | none => "<" ++ name ++ " not closed by the normalizer>"

/-- The lines of the log about a run. -/
def completionLines (c : Completion) : List String :=
  ["exit: " ++ c.ending.text ++ (if c.timedOut then " (timed out)" else ""),
    "--- stdout ---", streamText "stdout" c.output, "--- stderr ---", streamText "stderr" c.errors]

/-- What a run comes to: its result, the records' file, the lines of the log, the workspace. -/
structure Outcome where
  result : Except ImportError (Linework Float)
  json : Option String
  lines : List String
  workspace : Workspace

/-- The linework in the records that a run has written. -/
def readRecords (n : Normalizer) (w : Workspace) (path : String) :
    Except ImportError (Linework Float) :=
  match w.readText path with
  | .error e => .error (.io e.message)
  | .ok text =>
    match Record.read (.ofNat n.segments) text with
    | .error e => .error (.malformedArtifact (e.message n.complaint))
    | .ok work => .ok work

def runScript (n : Normalizer) (programs : Programs) (script interpreter drawing : String)
    (w : Workspace) :
    Outcome :=
  let (identifier, w) := w.fresh
  let output := n.artifactPath identifier ".json"
  let (completion, w) :=
    programs.run w interpreter (n.arguments script drawing output) n.timeoutMillis
  let lines := ("output: " ++ output) :: completionLines completion
  if w.isFile output then ⟨n.readRecords w output, some output, lines, w⟩
  else ⟨.error (.malformedArtifact (output ++ " was not written")), none, lines, w⟩

def normalize (n : Normalizer) (programs : Programs) (drawing : String) (w : Workspace) : Outcome :=
  match n.script? w with
  | none =>
    ⟨.error (.normalizerUnavailable ("normalizer script " ++ n.relativeScript ++ " not found")),
      none, [], w⟩
  | some script =>
    match n.interpreter? programs w with
    | none =>
      let reason := "no interpreter found (tried " ++ ", ".intercalate n.interpreters ++ ")"
      ⟨.error (.normalizerUnavailable reason), none, ["script: " ++ script], w⟩
    | some interpreter =>
      let outcome := n.runScript programs script interpreter drawing w
      { outcome with lines := ["script: " ++ script, "interpreter: " ++ interpreter] ++
        outcome.lines }

/-- The line of the log about an error. -/
def errorLines : Except ImportError (Linework Float) → List String
  | .ok _ => []
  | .error e => ["error: " ++ e.message]

def logText (drawing : String) (outcome : Outcome) : String :=
  "\n".intercalate (("input: " ++ drawing) :: outcome.lines ++ errorLines outcome.result)

/-- Normalizes a drawing and writes the log. -/
def read (n : Normalizer) (programs : Programs) (drawing : String) (artifacts : Artifacts)
    (w : Workspace) :
    Reading Workspace :=
  let outcome := n.normalize programs drawing w
  let (identifier, w) := outcome.workspace.fresh
  let path := n.artifactPath identifier ".log"
  let json := outcome.json.or artifacts.json
  match w.writeText path (logText drawing outcome) with
  | .ok w => ⟨outcome.result, ⟨json, some path⟩, w⟩
  | .error _ => ⟨outcome.result, ⟨json, none⟩, w⟩

end Normalizer

end Turnery.Import
