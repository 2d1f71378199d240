import Turnery.Curve.Spline

/-!
# Drawings

A drawing holds entities and named blocks of entities; an insertion places a block. Blocks may
contain insertions, and nothing forbids a block to insert itself.
-/

namespace Turnery

/-- The placing of a block: scaled, rotated by degrees and moved to a position. -/
structure Insertion (α : Type) where
  block : String
  position : Point α
  scaleX : α
  scaleY : α
  rotation : α
  deriving DecidableEq, Repr

inductive Entity (α : Type) where
  | line (start finish : Point α)
  | polyline (vertices : List (Point α)) (closed : Bool)
  | circle (center : Point α) (radius : α)
  /-- An arc between two angles in degrees. -/
  | arc (center : Point α) (radius startAngle endAngle : α)
  /-- A part of an ellipse; the axis is a vector from the center, the parameters are in radians. -/
  | ellipse (center axis : Point α) (ratio start finish : α)
  | spline (curve : Spline α) (fit : List (Point α))
  | insert (insertion : Insertion α)
  deriving DecidableEq, Repr

def Entity.kind {α : Type} : Entity α → String
  | line .. => "LINE"
  | polyline .. => "POLYLINE"
  | circle .. => "CIRCLE"
  | arc .. => "ARC"
  | ellipse .. => "ELLIPSE"
  | spline .. => "SPLINE"
  | insert .. => "INSERT"

/-- Entities that are placed together; the base point is what comes to lie at the position of an
insertion. -/
structure Block (α : Type) where
  base : Point α
  entities : List (Entity α)
  deriving DecidableEq, Repr

/-- Entities and the blocks that they may insert; of two blocks of one name the first counts. -/
structure Drawing (α : Type) where
  entities : List (Entity α)
  blocks : List (String × Block α)
  deriving DecidableEq, Repr

namespace Drawing

variable {α : Type}

/-- The drawing of some entities, without blocks. -/
def ofEntities (entities : List (Entity α)) : Drawing α := ⟨entities, []⟩

/-- The drawing with a block added, which takes the place of an earlier one of its name. -/
def addBlock (d : Drawing α) (name : String) (block : Block α) : Drawing α :=
  { d with blocks := (name, block) :: d.blocks }

def block? (d : Drawing α) (name : String) : Option (Block α) :=
  d.blocks.lookup name

@[simp] theorem block?_addBlock_self (d : Drawing α) (name : String) (block : Block α) :
    (d.addBlock name block).block? name = some block := by
  simp [block?, addBlock]

theorem block?_addBlock_of_ne (d : Drawing α) {name other : String} (block : Block α)
    (h : other ≠ name) : (d.addBlock name block).block? other = d.block? other := by
  have hb : (other == name) = false := beq_eq_false_iff_ne.2 h
  simp [block?, addBlock, List.lookup_cons, hb]

end Drawing

end Turnery
