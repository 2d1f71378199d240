import Turnery.Gcode.Turning
import Turnery.Import.Standard
import Turnery.Job.ToolSpec
import Turnery.Settings.Basic

/-!
# What settings decide

The options of the importer, the parameters of programs, and the job that settings lead to; with
them, the steps from a drawing file and tool specifications to a program.
-/

namespace Turnery.Settings

open Turnery.Files

def importOptions (s : Settings) (w : Workspace) : Import.Options where
  segments := s.drawings.segments
  normalizer :=
    { Import.Normalizer.standard w with
      script := s.drawings.normalizerScript
      interpreters := s.drawings.interpreters
      timeoutMillis := 1000 * s.drawings.timeoutSeconds
      segments := s.drawings.segments
      explodeInserts := s.drawings.explodeInserts }

def turning (s : Settings) : Gcode.Turning :=
  ⟨s.generation.feed, s.generation.spindle, s.generation.scale⟩

def job (s : Settings) (tools : List Tool) : Job where
  units := s.generation.units
  safeZ := s.generation.safeZ
  depthPerPass := s.generation.depthPerPass
  tools := tools

def importDrawing (s : Settings) (programs : Programs) (drawing : String) (w : Workspace) :
    Except ImportError Import.Report × Workspace :=
  let importer := Import.Importer.standard programs (s.importOptions w)
  let (result, _, w) := importer.importFile (fun path w => w.isFile path) drawing w
  (result, w)

/-- The tools of a list of specifications, or the complaint about the first that is wrong. -/
def readTools (specs : List String) : Except Error (List Tool) :=
  specs.mapM fun spec => (ToolSpec.parse spec).mapError fun e => .other (e.message spec)

def program (s : Settings) (given : Gcode.Turning.Adjustment) (work : Linework Float)
    (tools : List Tool) : String :=
  (s.turning.adjust given).generate work (s.job tools)

end Turnery.Settings
