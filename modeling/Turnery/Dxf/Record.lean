import Turnery.Dxf.Annex
import Turnery.Drawing.Entity

/-!
# Records of entities

A record is a pair of code 0 that names its kind and the pairs up to the next of code 0. Records of
unknown kinds are passed over. What a record says about a quantity is the last pair of its code.
-/

namespace Turnery.Dxf

/-- The kinds of records that are known; a plain one is read and draws nothing, and so are
attributes, their definitions, the letterings that may follow either, and dimensions. -/
inductive Kind where
  | line
  | circle
  | arc
  | ellipse
  | spline
  | lightPolyline
  | polyline
  | vertex
  | sequenceEnd
  | insert
  | attributeText
  | definition
  | lettering
  | dimension
  | plain
  deriving DecidableEq, Repr

def plainNames : List String :=
  ["3DFACE", "3DSOLID", "ACAD_PROXY_ENTITY", "ARCALIGNEDTEXT", "BODY", "DGNUNDERLAY", "DWFUNDERLAY",
    "HELIX", "IMAGE", "LEADER", "LIGHT", "MLINE", "OLE2FRAME", "OLEFRAME", "PDFUNDERLAY", "POINT",
    "RAY", "REGION", "RTEXT", "SECTION", "SHAPE", "SOLID", "TEXT", "TOLERANCE", "TRACE", "WIPEOUT",
    "XLINE"]

namespace Kind

def ofName? (name : String) : Option Kind :=
  match name with
  | "LINE" => some line
  | "3DLINE" => some line
  | "CIRCLE" => some circle
  | "ARC" => some arc
  | "ELLIPSE" => some ellipse
  | "SPLINE" => some spline
  | "LWPOLYLINE" => some lightPolyline
  | "POLYLINE" => some polyline
  | "VERTEX" => some vertex
  | "SEQEND" => some sequenceEnd
  | "INSERT" => some insert
  | "ATTRIB" => some attributeText
  | "ATTDEF" => some definition
  | "MTEXT" => some lettering
  | "DIMENSION" => some dimension
  | _ => if plainNames.contains name then some plain else none

/-- The codes of a light polyline that belong to a vertex. -/
def vertexCodes : List Int := [20, 40, 41, 42, 91]

/-- A record of the kind admits a pair. A light polyline says something about a vertex only once it
has one. -/
def admits (kind : Kind) (hasVertex : Bool) (p : Pair) : Bool :=
  kind != lightPolyline || hasVertex || !vertexCodes.contains p.code

/-- A gap ends a record of the kind as the next record would. -/
def endsAtGap (kind : Kind) : Bool :=
  kind == lightPolyline || kind == attributeText || kind == definition || kind == lettering

/-- A lettering may follow a record of the kind and then belongs to it. -/
def takesLettering (kind : Kind) : Bool :=
  kind == attributeText || kind == definition

end Kind

/-- The codes of the handles that records of a name alone refer to. -/
def furtherHandleCodes : String → List Int
  | "3DSOLID" => [350]
  | "ATTDEF" => [340]
  | "ATTRIB" => [340]
  | "IMAGE" => [340, 360]
  | "MLINE" => [340]
  | "SECTION" => [360]
  | "WIPEOUT" => [340, 360]
  | _ => []

/-- The codes of the handles in a record of a name: its own, those of its owner, its material and
its plot style, and those of what records of that name alone refer to. -/
def handleCodes (name : String) : List Int :=
  commonHandleCodes ++ [347, 390] ++ furtherHandleCodes name

/-- The pairs of a record behind its first. -/
def readBody (encoding : Encoding) (kind : Kind) (handleCodes : List Int) (hasVertex : Bool)
    (lines : List Line) :
    Outcome (List Pair) lines.length :=
  match next encoding lines with
  | .fault rest h => .failed rest (Nat.le_of_lt h)
  | .gap rest h => if kind.endsAtGap then .done [] rest h else .failed rest h
  | .pair p rest h =>
    if p.isHead then .done [] lines (Nat.le_refl _)
    else if kind.admits hasVertex p then
      match skipAnnex encoding handleCodes p rest with
      | .failed rest h' => .failed rest (short_of_shorter h' h)
      | .done () rest h' =>
        ((readBody encoding kind handleCodes (hasVertex || p.code == 10) rest).map (p :: ·)).weaken
          (short_of_shorter h' h)
    else .failed rest (Nat.le_of_lt h)
termination_by lines.length
decreasing_by omega

/-- Skips the pairs in front of the next of code 0. -/
def skipToHead (encoding : Encoding) (lines : List Line) : Outcome Unit lines.length :=
  match next encoding lines with
  | .fault rest h => .failed rest (Nat.le_of_lt h)
  | .gap rest h => .failed rest h
  | .pair p rest h =>
    if p.isHead then .done () lines (Nat.le_refl _)
    else (skipToHead encoding rest).weaken (Nat.le_of_lt h)
termination_by lines.length

/-- A record of a known kind. -/
structure Record where
  kind : Kind
  pairs : List Pair

def dimensionNames : List String :=
  ["AcDbAlignedDimension", "AcDbRotatedDimension", "AcDbRadialDimension", "AcDbDiametricDimension",
    "AcDb3PointAngularDimension", "AcDbOrdinateDimension"]

/-- The record is what its kind says. One of a dimension has to say which kind of dimension. -/
def Record.isDefinite (r : Record) : Bool :=
  r.kind != .dimension || r.pairs.any fun p =>
    p.code == 100 && dimensionNames.contains (p.text?.getD "")

/-- What comes of the attempt to read a record. -/
inductive Attempt (count : Nat) where
  | found (record : Record) (rest : List Line) (shorter : rest.length < count)
  | nothing (rest : List Line) (short : rest.length ≤ count)

/-- The same seen from further in front. -/
def Attempt.weaken {m n : Nat} (h : m ≤ n) : Attempt m → Attempt n
  | found record rest shorter => found record rest (shorter_trans shorter h)
  | nothing rest short => nothing rest (short_trans short h)

namespace Record

/-- The names at which a list of entities ends. -/
def closingNames : List String := ["ENDSEC", "ENDBLK"]

/-- The next definite record of a known kind. In front of the end of a section or block there is
none, and the lines are left as they are; where something cannot be read there is none either, and
the lines up to there are used up. -/
def read (encoding : Encoding) (lines : List Line) : Attempt lines.length :=
  match next encoding lines with
  | .fault rest h => .nothing rest (Nat.le_of_lt h)
  | .gap rest h => .nothing rest h
  | .pair p rest h =>
    if !p.isHead then .nothing rest (Nat.le_of_lt h)
    else
      let name := p.text?.getD ""
      if closingNames.contains name then .nothing lines (Nat.le_refl _)
      else
        match Kind.ofName? name with
        | some kind =>
          match readBody encoding kind (handleCodes name) false rest with
          | .failed rest h' => .nothing rest (short_of_shorter h' h)
          | .done pairs rest h' =>
            if Record.isDefinite ⟨kind, pairs⟩ then
              .found ⟨kind, pairs⟩ rest (Nat.lt_of_le_of_lt h' h)
            else (read encoding rest).weaken (short_of_shorter h' h)
        | none =>
          match skipToHead encoding rest with
          | .failed rest h' => .nothing rest (short_of_shorter h' h)
          | .done () rest h' => (read encoding rest).weaken (short_of_shorter h' h)
termination_by lines.length
decreasing_by all_goals omega

def values (r : Record) (code : Int) : List Value :=
  (r.pairs.filter (·.code == code)).map Pair.value

def reals (r : Record) (code : Int) : List Float :=
  (r.values code).filterMap fun
    | .real x => some x
    | _ => none

/-- The last number of a code, or a standard value. -/
def real (r : Record) (code : Int) (standard : Float) : Float :=
  (r.reals code).getLast?.getD standard

/-- The last integer of a code, or a standard value. -/
def integer (r : Record) (code : Int) (standard : Int) : Int :=
  ((r.values code).filterMap fun
    | .integer n => some n
    | _ => none).getLast?.getD standard

/-- The last text of a code; the empty one if there is none. -/
def text (r : Record) (code : Int) : String :=
  ((r.values code).filterMap fun
    | .text s => some s
    | _ => none).getLast?.getD ""

/-- The point in the pairs of two codes, zero where nothing is said. -/
def point (r : Record) (xCode yCode : Int) : Point Float :=
  ⟨r.real xCode 0, r.real yCode 0⟩

/-- The points whose three coordinates stand in the pairs of three codes; as many as each code
has. -/
def points (r : Record) (xCode yCode zCode : Int) : List (Point Float) :=
  ((r.reals xCode).zip ((r.reals yCode).zip (r.reals zCode))).map fun (x, y, _) => ⟨x, y⟩

/-- The lowest bit of the flags is set. -/
def isClosed (r : Record) : Bool :=
  r.integer 70 0 % 2 != 0

/-- The vertices that pairs speak of, the latest first: an abscissa starts a vertex, an ordinate
belongs to the latest one. -/
def stackVertices : List (Point Float) → List Pair → List (Point Float)
  | vertices, [] => vertices
  | vertices, p :: rest =>
    match p.value with
    | .real v =>
      if p.code == 10 then stackVertices (⟨v, 0⟩ :: vertices) rest
      else if p.code == 20 then
        match vertices with
        | [] => stackVertices [] rest
        | latest :: others => stackVertices (⟨latest.x, v⟩ :: others) rest
      else stackVertices vertices rest
    | _ => stackVertices vertices rest

def lightVertices (r : Record) : List (Point Float) :=
  (stackVertices [] r.pairs).reverse

/-- The degree of a spline; a negative one counts as zero. -/
def degree (r : Record) : Nat :=
  (r.integer 71 1).toNat

/-- The entity of a record; an old polyline has its vertices from records of their own. -/
def entity? (r : Record) (vertices : List (Point Float)) : Option (Entity Float) :=
  match r.kind with
  | .line => some (.line (r.point 10 20) (r.point 11 21))
  | .circle => some (.circle (r.point 10 20) (r.real 40 0))
  | .arc => some (.arc (r.point 10 20) (r.real 40 0) (r.real 50 0) (r.real 51 360))
  | .ellipse =>
    some (.ellipse (r.point 10 20) ⟨r.real 11 1, r.real 21 0⟩ (r.real 40 1) (r.real 41 0)
      (r.real 42 Scalar.tau))
  | .spline => some (.spline ⟨r.degree, r.reals 40, r.points 10 20 30⟩ (r.points 11 21 31))
  | .lightPolyline => some (.polyline r.lightVertices r.isClosed)
  | .polyline => some (.polyline vertices r.isClosed)
  | .insert => some (.insert ⟨r.text 2, r.point 10 20, r.real 41 1, r.real 42 1, r.real 50 0⟩)
  | .vertex => none
  | .sequenceEnd => none
  | .attributeText => none
  | .definition => none
  | .lettering => none
  | .dimension => none
  | .plain => none

/-- Attributes follow the record of an insertion. -/
def hasAttributes (r : Record) : Bool :=
  r.kind == .insert && r.integer 66 0 != 0

end Record

end Turnery.Dxf
