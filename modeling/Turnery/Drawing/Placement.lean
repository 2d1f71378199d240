import Turnery.Drawing.Entity
import Turnery.Geometry.Linework
import Turnery.Number.FloatStyle

/-!
# Placing the entities of a drawing

An entity is drawn in its own coordinates, checked, and mapped by the placement under which it
stands. An insertion places each entity of its block; insertions are followed to a bounded depth,
which ends the expansion of blocks that insert themselves. An entity that cannot be drawn is left
out and does not disturb the others.
-/

namespace Turnery.Placement

/-- How many insertions may stand one inside the other. -/
def maxDepth : Nat := 16

/-- Why an entity cannot be drawn. -/
inductive Failure (α : Type) where
  | invalidRadius (radius : α)
  | degenerateEllipse
  | notFinite (kind : String)
  | nestedTooDeep (block : String)
  | missingBlock (block : String)
  deriving DecidableEq, Repr

def Failure.message : Failure Float → String
  | invalidRadius radius => "invalid radius " ++ Number.FloatStyle.plain.text radius
  | degenerateEllipse => "degenerate ellipse"
  | notFinite kind => kind ++ " has non-finite coordinates"
  | nestedTooDeep block =>
    "block '" ++ block ++ "' nested deeper than " ++ String.ofList (Number.digits maxDepth)
  | missingBlock block => "block '" ++ block ++ "' not found"

variable {α : Type} [Add α] [Sub α] [Mul α] [Div α] [Neg α] [Zero α] [One α] [LT α] [LE α]
  [DecidableLT α] [DecidableLE α] [BEq α] [Scalar α]

/-- A radius has to be finite and positive. -/
def checkRadius (radius : α) : Except (Failure α) Unit :=
  if Scalar.isFinite radius && decide (0 < radius) then .ok () else .error (.invalidRadius radius)

/-- A spline runs through its fit points if it has two or more; else it is its curve if it can be
evaluated, and its control polygon if not. -/
def splineOutline (tess : Tessellation) (curve : Spline α) (fit : List (Point α)) : Polyline α :=
  if 2 ≤ fit.length then ⟨fit⟩ else (curve.curve? tess).getD ⟨curve.control⟩

/-- The outline of an entity other than an insertion, in its own coordinates; an insertion has
none. -/
def outline (tess : Tessellation) : Entity α → Except (Failure α) (Polyline α)
  | .line start finish => .ok ⟨[start, finish]⟩
  | .polyline vertices closed => .ok (if closed then .closed vertices else ⟨vertices⟩)
  | .circle center radius => do
    checkRadius radius
    .ok (tess.circle center radius)
  | .arc center radius startAngle endAngle => do
    checkRadius radius
    .ok (tess.arc center radius startAngle endAngle)
  | .ellipse center axis ratio start finish =>
    if 0 < ratio && axis.isFinite then .ok (tess.ellipse center axis ratio start finish)
    else .error .degenerateEllipse
  | .spline curve fit => .ok (splineOutline tess curve fit)
  | .insert _ => .ok ⟨[]⟩

/-- The outline of an entity, if all its points are finite. -/
def finiteOutline (tess : Tessellation) (entity : Entity α) : Except (Failure α) (Polyline α) := do
  let line ← outline tess entity
  if line.isFinite then .ok line else .error (.notFinite entity.kind)

/-- The image of a polyline; the identity leaves it untouched. -/
def moved (m : Affine α) (line : Polyline α) : Polyline α :=
  if m.isIdentity then line else line.map m

/-- The map that takes a block's coordinates to those in which it is inserted. -/
def insertionMap (insertion : Insertion α) (base : Point α) : Affine α :=
  (Affine.insertion insertion.position insertion.scaleX insertion.scaleY insertion.rotation).comp
    (Affine.displacement (-base.x) (-base.y))

/-- The polylines of an entity under a map, with room for a number of insertions one inside the
other. -/
def place (tess : Tessellation) (drawing : Drawing α) :
    Nat → Affine α → Entity α → Except (Failure α) (List (Polyline α))
  | 0, m, entity =>
    match entity with
    | .insert insertion => .error (.nestedTooDeep insertion.block)
    | entity => do
      let line ← finiteOutline tess entity
      .ok [moved m line]
  | room + 1, m, entity =>
    match entity with
    | .insert insertion =>
      match drawing.block? insertion.block with
      | none => .error (.missingBlock insertion.block)
      | some block =>
        let inner := m.comp (insertionMap insertion block.base)
        .ok (block.entities.flatMap fun child =>
          match place tess drawing room inner child with
          | .ok lines => lines
          | .error _ => [])
    | entity => do
      let line ← finiteOutline tess entity
      .ok [moved m line]

/-- The linework of a drawing. -/
def linework (tess : Tessellation) (drawing : Drawing α) : Linework α :=
  Linework.ofList (drawing.entities.flatMap fun entity =>
    match place tess drawing maxDepth Affine.identity entity with
    | .ok lines => lines
    | .error _ => [])

end Turnery.Placement
