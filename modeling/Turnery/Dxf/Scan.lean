import Turnery.Drawing.Entity
import Turnery.Number.Literal
import Turnery.Text.CharacterClass
import Turnery.Text.Lines

/-!
# Scanning for entities

The forgiving way to read a DXF file: its lines are taken in pairs of a code and a value, pairs with
an unreadable code are dropped, and the five kinds of entities that legacy files consist of are
picked out wherever they stand outside the blocks. An entity with an unreadable number is left out.
-/

namespace Turnery.Dxf

/-- A pair of a code and a value. -/
structure Group where
  code : Int
  value : String
  deriving DecidableEq, Repr

namespace Scan

/-- The groups of a list of lines; a last line without a partner is dropped. -/
def groupsOfLines : List (List Char) → List Group
  | code :: value :: rest =>
    ((Number.int32? (Text.trim code)).map fun n => ⟨n, String.ofList (Text.trim value)⟩).toList ++
      groupsOfLines rest
  | _ => []

def groups (text : String) : List Group :=
  groupsOfLines (Text.lines text.toList)

def Inner (g : Group) : Bool := g.code != 0

/-- The groups up to the next that starts a record. -/
def body (gs : List Group) : List Group := gs.takeWhile Inner

/-- The groups from the next on that starts a record. -/
def afterBody (gs : List Group) : List Group := gs.dropWhile Inner

theorem afterBody_length (gs : List Group) : (afterBody gs).length ≤ gs.length :=
  (List.dropWhile_suffix _).length_le

def Group.number? (g : Group) : Option Float :=
  Number.float? g.value.toList

/-- A quantity that may be absent: the first group of a code, a standard value if there is none, and
nothing if the group holds no number. -/
def quantityOr? (gs : List Group) (code : Int) (standard : Float) : Option Float :=
  match gs.find? (·.code == code) with
  | none => some standard
  | some g => Group.number? g

def quantity? (gs : List Group) (code : Int) : Option Float :=
  (gs.find? (·.code == code)).bind Group.number?

/-- The point in the groups of two codes; an absent coordinate is zero. -/
def point? (gs : List Group) (xCode yCode : Int) : Option (Point Float) := do
  let x ← quantityOr? gs xCode 0
  let y ← quantityOr? gs yCode 0
  some ⟨x, y⟩

/-- The lowest bit of the flags in the first group 70 is set. -/
def isClosed (gs : List Group) : Bool :=
  match (gs.find? (·.code == 70)).bind fun g => Number.int32? g.value.toList with
  | none => false
  | some flags => flags % 2 != 0

/-- The vertices of a light polyline: each ordinate in a group 20 completes the latest abscissa in a
group 10 that is still open. -/
def lightVertices? (pending : Option Float) : List Group → Option (List (Point Float))
  | [] => some []
  | g :: rest =>
    if g.code == 10 then do
      let x ← Group.number? g
      lightVertices? (some x) rest
    else if g.code == 20 then
      match pending with
      | none => lightVertices? none rest
      | some x => do
        let y ← Group.number? g
        let others ← lightVertices? none rest
        some (⟨x, y⟩ :: others)
    else lightVertices? pending rest

/-- The kinds of entities that are picked out. -/
inductive Kind where
  | line
  | lightPolyline
  | polyline
  | circle
  | arc
  deriving DecidableEq, Repr

def Kind.ofName? : String → Option Kind
  | "LINE" => some line
  | "LWPOLYLINE" => some lightPolyline
  | "POLYLINE" => some polyline
  | "CIRCLE" => some circle
  | "ARC" => some arc
  | _ => none

/-- The entity of a kind that a body describes; the vertices of an old polyline come from records of
their own. -/
def Kind.entity? (gs : List Group) (vertices : List (Point Float)) : Kind → Option (Entity Float)
  | line => do
    let start ← point? gs 10 20
    let finish ← point? gs 11 21
    some (.line start finish)
  | lightPolyline => do
    let vertices ← lightVertices? none gs
    some (.polyline vertices (isClosed gs))
  | polyline => some (.polyline vertices (isClosed gs))
  | circle => do
    let center ← point? gs 10 20
    let radius ← quantity? gs 40
    some (.circle center radius)
  | arc => do
    let center ← point? gs 10 20
    let radius ← quantity? gs 40
    let startAngle ← quantity? gs 50
    let endAngle ← quantity? gs 51
    some (.arc center radius startAngle endAngle)

/-- The vertices in the vertex records at the front, unreadable ones left out, and the groups behind
them. -/
def takeVertices : List Group → List (Point Float) × List Group
  | [] => ([], [])
  | g :: rest =>
    if g.code == 0 && g.value == "VERTEX" then
      let (others, rest') := takeVertices (afterBody rest)
      ((point? (body rest) 10 20).toList ++ others, rest')
    else ([], g :: rest)
termination_by gs => gs.length
decreasing_by
  have := afterBody_length rest
  simp only [List.length_cons]
  omega

theorem takeVertices_length (gs : List Group) : (takeVertices gs).2.length ≤ gs.length := by
  fun_induction takeVertices gs with
  | case1 => simp
  | case2 g rest _ others rest' heq ih =>
    have := afterBody_length rest
    rw [heq] at ih
    simp only [List.length_cons] at ih ⊢
    omega
  | case3 => simp

/-- A section of blocks starts with these groups. -/
def namesBlocks : List Group → Bool
  | g :: _ => g.code == 2 && g.value == "BLOCKS"
  | [] => false

/-- The entities of a list of groups; inside the blocks nothing is picked out. -/
def entitiesFrom (inBlocks : Bool) : List Group → List (Entity Float)
  | [] => []
  | g :: rest =>
    if g.code != 0 then entitiesFrom inBlocks rest
    else if g.value == "SECTION" then entitiesFrom (namesBlocks rest) rest
    else if g.value == "ENDSEC" then entitiesFrom false rest
    else
      match if inBlocks then none else Kind.ofName? g.value with
      | none => entitiesFrom inBlocks (afterBody rest)
      | some .polyline =>
        let taken := takeVertices (afterBody rest)
        (Kind.entity? (body rest) taken.1 .polyline).toList ++ entitiesFrom inBlocks taken.2
      | some kind => (kind.entity? (body rest) []).toList ++ entitiesFrom inBlocks (afterBody rest)
termination_by gs => gs.length
decreasing_by
  all_goals
    have := afterBody_length rest
    have := takeVertices_length (afterBody rest)
    simp only [List.length_cons]
    omega

def entities (gs : List Group) : List (Entity Float) :=
  entitiesFrom false gs

/-- The drawing in a text. -/
def drawing (text : String) : Drawing Float :=
  .ofEntities (entities (groups text))

end Scan

end Turnery.Dxf
