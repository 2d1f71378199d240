import Turnery.Dxf.Content
import Turnery.Dxf.Scan
import Turnery.Drawing.Placement
import Turnery.Import.Importer
import Turnery.Import.Normalizer
import Turnery.Svg.Document

/-!
# The standard readers

The readers that work on the files of a workspace, and the importer that tries them: SVG files as
texts, DXF files strictly, then through the normalizer, then by scanning for entities. All
tessellate alike.
-/

namespace Turnery.Import

open Turnery.Files

/-- A reader that makes linework from the bytes of the file alone. -/
def Reader.ofBytes (tier : Tier) (decode : List UInt8 → Except ImportError (Linework Float)) :
    Reader Workspace where
  tier := tier
  read path artifacts w :=
    match w.read path with
    | .error e => ⟨.error (.io e.message), artifacts, w⟩
    | .ok bytes => ⟨decode bytes, artifacts, w⟩

/-- The reader of SVG files, which must be well-formed texts. -/
def svgReader : Reader Workspace :=
  .ofBytes .svg fun bytes =>
    match Text.Utf8.decode? bytes with
    | none => .error (.io FileError.notText.message)
    | some text => .ok (Svg.Document.linework (String.ofList text))

/-- The linework of a DXF file that is in order. -/
def strictLinework (tess : Tessellation) (bytes : List UInt8) :
    Except ImportError (Linework Float) :=
  match Dxf.drawing? bytes with
  | none => .error (.undecodable Tier.nativeDxf.name "the file is not in order")
  | some drawing => .ok (Placement.linework tess drawing)

/-- The strict reader of DXF files. -/
def strictReader (tess : Tessellation) : Reader Workspace :=
  .ofBytes .nativeDxf (strictLinework tess)

/-- The reader that scans DXF files, whatever their encoding, for entities. -/
def scanReader (tess : Tessellation) : Reader Workspace :=
  .ofBytes .asciiDxf fun bytes =>
    .ok (Placement.linework tess
      (Dxf.Scan.drawing (String.ofList (Text.Utf8.decodeTolerant bytes))))

def normalizerReader (programs : Programs) (n : Normalizer) : Reader Workspace where
  tier := .normalizer
  read := n.read programs

/-- What the standard importer can be told. -/
structure Options where
  segments : Nat
  normalizer : Normalizer

def Options.standard (w : Workspace) : Options :=
  ⟨Tessellation.standardSegments, .standard w⟩

/-- The importer with the standard readers. The normalizer is given the same number of segments as
the others. -/
def Importer.standard (programs : Programs) (options : Options) : Importer Workspace :=
  let tess := Tessellation.ofNat options.segments
  .ofReaders svgReader
    [strictReader tess, normalizerReader programs
      { options.normalizer with segments := tess.segments },
      scanReader tess]

end Turnery.Import
