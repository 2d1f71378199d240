import Turnery.Dxf.Objects
import Turnery.Dxf.Preview
import Turnery.Dxf.Record
import Turnery.Dxf.Setting

/-!
# The content of a file

A file is a sequence of named sections. The entities come from the sections of that name, the blocks
from theirs; the header says how texts are encoded; the others must merely be in order. A file in
which the order is broken has no content at all, while a list of entities simply ends at one that
cannot be read.
-/

namespace Turnery.Dxf

/-- Skips the record at the front if it is of a kind. An unreadable one is used up, too. -/
def skipKind (encoding : Encoding) (kind : Kind) (lines : List Line) : Rest lines.length :=
  match Record.read encoding lines with
  | .nothing rest h => ⟨rest, h⟩
  | .found r rest h => if r.kind == kind then ⟨rest, short_of_lt h⟩ else ⟨lines, short_self lines⟩

/-- Skips the lettering that belongs to a record in front of it. -/
def skipLettering (encoding : Encoding) (r : Record) (lines : List Line) : Rest lines.length :=
  if r.kind.takesLettering then skipKind encoding .lettering lines else ⟨lines, short_self lines⟩

/-- The records of a kind at the front. An unreadable one ends them and is used up. -/
def readRun (encoding : Encoding) (kind : Kind) (lines : List Line) :
    List Record × Rest lines.length :=
  match Record.read encoding lines with
  | .nothing rest h => ([], ⟨rest, h⟩)
  | .found r rest h =>
    if r.kind == kind then
      let behind := skipLettering encoding r rest
      let others := readRun encoding kind behind.1
      (r :: others.1, others.2.weaken (short_of_shorter behind.2 h))
    else ([], ⟨lines, Nat.le_refl _⟩)
termination_by lines.length
decreasing_by
  have := (skipLettering encoding r rest).2
  omega

/-- The records of a kind at the front and the end of their sequence. -/
def readSequence (encoding : Encoding) (kind : Kind) (lines : List Line) :
    List Record × Rest lines.length :=
  let run := readRun encoding kind lines
  (run.1, (skipKind encoding .sequenceEnd run.2.1).weaken run.2.2)

/-- The records that belong to one that stands in front of them. -/
def readMembers (encoding : Encoding) (r : Record) (lines : List Line) :
    List Record × Rest lines.length :=
  if r.kind == .polyline then readSequence encoding .vertex lines
  else if r.hasAttributes then readSequence encoding .attributeText lines
  else ([], skipLettering encoding r lines)

def readEntities (encoding : Encoding) (lines : List Line) :
    List (Entity Float) × Rest lines.length :=
  match Record.read encoding lines with
  | .nothing rest h => ([], ⟨rest, h⟩)
  | .found r rest h =>
    let members := readMembers encoding r rest
    let others := readEntities encoding members.2.1
    ((r.entity? (members.1.map fun v => v.point 10 20)).toList ++ others.1,
      others.2.weaken (Nat.le_trans members.2.2 (Nat.le_of_lt h)))
termination_by lines.length
decreasing_by
  have := (readMembers encoding r rest).2.2
  omega

structure BlockDraft where
  name : String
  block : Block Float

/-- What a pair of its head says about a block. -/
def BlockDraft.note (draft : BlockDraft) (p : Pair) : BlockDraft :=
  match p.code, p.value with
  | 2, .text name => { draft with name }
  | 10, .real x => { draft with block := { draft.block with base := ⟨x, draft.block.base.y⟩ } }
  | 20, .real y => { draft with block := { draft.block with base := ⟨draft.block.base.x, y⟩ } }
  | _, _ => draft

def BlockDraft.extend (draft : BlockDraft) (entities : List (Entity Float)) : BlockDraft :=
  { draft with block := { draft.block with entities := draft.block.entities ++ entities } }

/-- The rest of a block. Its end may be missing in front of the end of the section. -/
def readBlock (encoding : Encoding) (draft : BlockDraft) (lines : List Line) :
    Outcome BlockDraft lines.length :=
  match next encoding lines with
  | .fault rest h => .failed rest (Nat.le_of_lt h)
  | .gap rest h => .failed rest h
  | .pair p rest h =>
    if p.isMark 0 "ENDBLK" then
      ((skipToHead encoding rest).map fun () => draft).weaken (Nat.le_of_lt h)
    else if p.isMark 0 "ENDSEC" then .done draft lines (Nat.le_refl _)
    else if p.isMark 0 "EOF" then .failed rest (Nat.le_of_lt h)
    else if p.isHead then
      let entities := readEntities encoding lines
      if h' : entities.2.1.length < lines.length then
        (readBlock encoding (draft.extend entities.1) entities.2.1).weaken (Nat.le_of_lt h')
      else .failed rest (Nat.le_of_lt h)
    else
      match skipAnnex encoding commonHandleCodes p rest with
      | .failed rest h' => .failed rest (short_of_shorter h' h)
      | .done () rest h' => (readBlock encoding (draft.note p) rest).weaken (short_of_shorter h' h)
termination_by lines.length
decreasing_by all_goals omega

structure Content where
  encoding : Encoding
  drawing : Drawing Float

/-- The content of a file of which nothing has been read. -/
def Content.start : Content := ⟨.windows1252, .ofEntities []⟩

def Content.addEntities (content : Content) (entities : List (Entity Float)) : Content :=
  { content with drawing := { content.drawing with entities := content.drawing.entities ++
    entities } }

def Content.addBlock (content : Content) (draft : BlockDraft) : Content :=
  { content with drawing := content.drawing.addBlock draft.name draft.block }

/-- The versions whose texts are encoded in UTF-8, by either of the names that they go under. -/
def utf8Versions : List String :=
  ["AC1021", "AC1024", "AC1027", "AC1032", "17.0", "17.1", "17.2", "18.0", "18.1", "18.2", "19.0",
    "19.1", "19.2", "19.3"]

/-- The encoding after a value of a setting of the header, if the setting may have it. -/
def headerEncoding? (encoding : Encoding) (setting : String) (p : Pair) : Option Encoding :=
  if !Setting.admits setting p then none
  else if setting == "$ACADVER" && utf8Versions.contains (p.text?.getD "") then some .utf8
  else some encoding

/-- The values of a setting of the header. They end in front of the next setting, at the end of the
header, and at a gap. -/
def readSetting (content : Content) (setting : String) (lines : List Line) :
    Outcome Content lines.length :=
  match next content.encoding lines with
  | .fault rest h => .failed rest (Nat.le_of_lt h)
  | .gap rest h => .done content rest h
  | .pair p rest h =>
    if p.isHead || p.code == 9 then .done content lines (Nat.le_refl _)
    else
      match headerEncoding? content.encoding setting p with
      | none => .failed rest (Nat.le_of_lt h)
      | some encoding =>
        (readSetting { content with encoding } setting rest).weaken (Nat.le_of_lt h)
termination_by lines.length

/-- The header: settings, each with its values behind it. -/
def readHeader (content : Content) (lines : List Line) : Outcome Content lines.length :=
  match next content.encoding lines with
  | .fault rest h => .failed rest (Nat.le_of_lt h)
  | .gap rest h => .done content rest h
  | .pair p rest h =>
    if p.isHead then .done content lines (Nat.le_refl _)
    else if p.code == 9 then
      match readSetting content (p.text?.getD "") rest with
      | .failed rest h' => .failed rest (short_of_shorter h' h)
      | .done content rest h' => (readHeader content rest).weaken (short_of_shorter h' h)
    else .failed rest (Nat.le_of_lt h)
termination_by lines.length
decreasing_by omega

def skipSection (encoding : Encoding) (lines : List Line) : Outcome Unit lines.length :=
  match next encoding lines with
  | .fault rest h => .failed rest (Nat.le_of_lt h)
  | .gap rest h => .done () rest h
  | .pair p rest h =>
    if p.isMark 0 "ENDSEC" then .done () lines (Nat.le_refl _)
    else (skipSection encoding rest).weaken (Nat.le_of_lt h)
termination_by lines.length

/-- Skips the classes: records of any kind. What stands in front of the first does not matter. -/
def skipClasses (encoding : Encoding) (lines : List Line) : Outcome Unit lines.length :=
  match next encoding lines with
  | .fault rest h => .failed rest (Nat.le_of_lt h)
  | .gap rest h => .done () rest h
  | .pair p rest h =>
    if p.isMark 0 "ENDSEC" then .done () lines (Nat.le_refl _)
    else if !p.isHead then (skipClasses encoding rest).weaken (Nat.le_of_lt h)
    else
      match skipToHead encoding rest with
      | .failed rest h' => .failed rest (short_of_shorter h' h)
      | .done () rest h' => (skipClasses encoding rest).weaken (short_of_shorter h' h)
termination_by lines.length
decreasing_by all_goals omega

/-- The tables whose items are read. -/
def tableNames : List String :=
  ["APPID", "BLOCK_RECORD", "DIMSTYLE", "LAYER", "LTYPE", "STYLE", "UCS", "VIEW", "VPORT"]

/-- The codes of the handles in the items of a table. The own one of a dimension style, in which 5
is the name of an arrow, has a code of its own. -/
def itemHandleCodes : String → List Int
  | "BLOCK_RECORD" => commonHandleCodes ++ [340]
  | "DIMSTYLE" => [105, 330]
  | "LAYER" => commonHandleCodes ++ [347, 390]
  | "LTYPE" => commonHandleCodes ++ [340]
  | "UCS" => commonHandleCodes ++ [346]
  | "VIEW" => commonHandleCodes ++ [332, 334, 345, 346, 348, 361]
  | "VPORT" => commonHandleCodes ++ [332, 333, 345, 346, 348, 361]
  | _ => commonHandleCodes

def skipTableItem (encoding : Encoding) (handleCodes : List Int) (lines : List Line) :
    Outcome Unit lines.length :=
  match next encoding lines with
  | .fault rest h => .failed rest (Nat.le_of_lt h)
  | .gap rest h => .failed rest h
  | .pair p rest h =>
    if p.isHead then .done () lines (Nat.le_refl _)
    else
      match skipAnnex encoding handleCodes p rest with
      | .failed rest h' => .failed rest (short_of_shorter h' h)
      | .done () rest h' => (skipTableItem encoding handleCodes rest).weaken (short_of_shorter h' h)
termination_by lines.length
decreasing_by omega

/-- Skips the items of a table, each headed by its name. -/
def skipItems (encoding : Encoding) (name : String) (lines : List Line) :
    Outcome Unit lines.length :=
  match next encoding lines with
  | .fault rest h => .failed rest (Nat.le_of_lt h)
  | .gap rest h => .failed rest h
  | .pair p rest h =>
    if p.isMark 0 name then
      match skipTableItem encoding (itemHandleCodes name) rest with
      | .failed rest h' => .failed rest (short_of_shorter h' h)
      | .done () rest h' => (skipItems encoding name rest).weaken (short_of_shorter h' h)
    else if p.isHead then .done () lines (Nat.le_refl _)
    else (skipItems encoding name rest).weaken (Nat.le_of_lt h)
termination_by lines.length
decreasing_by all_goals omega

/-- The names at which a table of an unknown name ends. -/
def tableBounds : List String := ["TABLE", "ENDSEC", "ENDTAB"]

def skipUnknownTable (encoding : Encoding) (lines : List Line) : Outcome Unit lines.length :=
  match next encoding lines with
  | .fault rest h => .failed rest (Nat.le_of_lt h)
  | .gap rest h => .failed rest h
  | .pair p rest h =>
    if p.isHead && tableBounds.contains (p.text?.getD "") then .done () lines (Nat.le_refl _)
    else (skipUnknownTable encoding rest).weaken (Nat.le_of_lt h)
termination_by lines.length

/-- Skips a pair that must have the given code and text. -/
def skipMark (encoding : Encoding) (code : Int) (mark : String) (lines : List Line) :
    Outcome Unit lines.length :=
  match next encoding lines with
  | .fault rest h => .failed rest (Nat.le_of_lt h)
  | .gap rest h => .failed rest h
  | .pair p rest h =>
    if p.isMark code mark then .done () rest (Nat.le_of_lt h) else .failed rest (Nat.le_of_lt h)

/-- Skips a table from its name to its end. -/
def skipTable (encoding : Encoding) (lines : List Line) : Outcome Unit lines.length :=
  match next encoding lines with
  | .fault rest h => .failed rest (Nat.le_of_lt h)
  | .gap rest h => .failed rest h
  | .pair p rest h =>
    let name := p.text?.getD ""
    if p.code != 2 then .failed rest (Nat.le_of_lt h)
    else
      match if tableNames.contains name then skipItems encoding name rest
        else skipUnknownTable encoding rest with
      | .failed rest h' => .failed rest (short_of_shorter h' h)
      | .done () rest h' => (skipMark encoding 0 "ENDTAB" rest).weaken (short_of_shorter h' h)

def skipTables (encoding : Encoding) (lines : List Line) : Outcome Unit lines.length :=
  match next encoding lines with
  | .fault rest h => .failed rest (Nat.le_of_lt h)
  | .gap rest h => .failed rest h
  | .pair p rest h =>
    if p.isMark 0 "ENDSEC" then .done () lines (Nat.le_refl _)
    else if p.isMark 0 "TABLE" then
      match skipTable encoding rest with
      | .failed rest h' => .failed rest (short_of_shorter h' h)
      | .done () rest h' => (skipTables encoding rest).weaken (short_of_shorter h' h)
    else .failed rest (Nat.le_of_lt h)
termination_by lines.length
decreasing_by omega

def readBlocks (content : Content) (lines : List Line) : Outcome Content lines.length :=
  match next content.encoding lines with
  | .fault rest h => .failed rest (Nat.le_of_lt h)
  | .gap rest h => .failed rest h
  | .pair p rest h =>
    if p.isMark 0 "ENDSEC" then .done content lines (Nat.le_refl _)
    else if p.isMark 0 "BLOCK" then
      match readBlock content.encoding ⟨"", ⟨.origin, []⟩⟩ rest with
      | .failed rest h' => .failed rest (short_of_shorter h' h)
      | .done draft rest h' =>
        (readBlocks (content.addBlock draft) rest).weaken (short_of_shorter h' h)
    else .failed rest (Nat.le_of_lt h)
termination_by lines.length
decreasing_by omega

def readSectionBody (content : Content) (name : String) (lines : List Line) :
    Outcome Content lines.length :=
  match name with
  | "HEADER" => readHeader content lines
  | "CLASSES" => (skipClasses content.encoding lines).map fun () => content
  | "TABLES" => (skipTables content.encoding lines).map fun () => content
  | "BLOCKS" => readBlocks content lines
  | "ENTITIES" =>
    let entities := readEntities content.encoding lines
    .done (content.addEntities entities.1) entities.2.1 entities.2.2
  | "OBJECTS" =>
    let rest := skipObjects content.encoding lines
    .done content rest.1 rest.2
  | "THUMBNAILIMAGE" => (Preview.skip content.encoding lines).map fun () => content
  | _ => (skipSection content.encoding lines).map fun () => content

def readSection (content : Content) (lines : List Line) : Outcome Content lines.length :=
  match next content.encoding lines with
  | .fault rest h => .failed rest (Nat.le_of_lt h)
  | .gap rest h => .failed rest h
  | .pair p rest h =>
    if p.code != 2 then .failed rest (Nat.le_of_lt h)
    else
      match readSectionBody content (p.text?.getD "") rest with
      | .failed rest h' => .failed rest (short_of_shorter h' h)
      | .done content rest h' =>
        ((skipMark content.encoding 0 "ENDSEC" rest).map fun () => content).weaken
          (short_of_shorter h' h)

/-- The drawing, if nothing but the end of the file follows. -/
def finish? (content : Content) (lines : List Line) : Option (Drawing Float) :=
  match next content.encoding lines with
  | .fault .. => none
  | .gap .. => some content.drawing
  | .pair p .. => if p.isMark 0 "EOF" then some content.drawing else none

def readSections (content : Content) (lines : List Line) : Option (Drawing Float) :=
  match next content.encoding lines with
  | .fault .. => none
  | .gap rest _ => finish? content rest
  | .pair p rest _ =>
    if p.isMark 0 "EOF" then some content.drawing
    else if p.isMark 0 "SECTION" then
      match readSection content rest with
      | .failed .. => none
      | .done content rest _ => readSections content rest
    else none
termination_by lines.length
decreasing_by omega

/-- The drawing in the bytes of a file. -/
def drawing? (bytes : List UInt8) : Option (Drawing Float) :=
  readSections .start (Line.ofBytes bytes)

end Turnery.Dxf
