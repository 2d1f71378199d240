import Turnery.Curve.Tessellation

/-!
# B-spline curves

A curve is given by its degree, its knots and its control points, and is evaluated by the triangular
scheme that blends neighbouring control points level by level. Every look-up and every subtraction
of positions is checked, so that a position outside its list would show as `none`.
-/

namespace Turnery

/-- A b-spline curve as it stands in a drawing; nothing is known about its knots yet. -/
structure Spline (α : Type) where
  degree : Nat
  knots : List α
  control : List (Point α)
  deriving DecidableEq, Repr

namespace Spline

/-- The difference of two positions, if it is one. -/
def position? (i j : Nat) : Option Nat :=
  if j ≤ i then some (i - j) else none

variable {α : Type}

/-- Some knot is smaller than the one before it. -/
def decreases [LT α] [DecidableLT α] (knots : List α) : Bool :=
  (knots.zip knots.tail).any fun (a, b) => decide (b < a)

/-- The domain of the curve, if its numbers of knots and control points fit its degree, the knots do
not decrease, and the domain is not empty. -/
def domain? [LT α] [DecidableLT α] (s : Spline α) : Option (α × α) :=
  if s.degree == 0 || s.control.length ≤ s.degree ||
      s.knots.length != s.control.length + s.degree + 1 || decreases s.knots then none
  else
    match s.knots[s.degree]?, s.knots[s.control.length]? with
    | some first, some last => if first < last then some (first, last) else none
    | _, _ => none

/-- The span of a parameter: from `k` on, the first whose right end is beyond the parameter, or the
span after `remaining` more. -/
def spanFrom? [LE α] [DecidableLE α] (knots : List α) (t : α) : Nat → Nat → Option Nat
  | 0, k => some k
  | remaining + 1, k => do
    let next ← knots[k + 1]?
    if next ≤ t then spanFrom? knots t remaining (k + 1) else some k

/-- The span of a parameter, from the degree up to the last one. -/
def span? [LE α] [DecidableLE α] (s : Spline α) (t : α) : Option Nat := do
  let last ← position? s.control.length 1
  let spans ← position? last s.degree
  spanFrom? s.knots t spans s.degree

/-- The control points that have influence on a span. -/
def support? (s : Spline α) (k : Nat) : Option (List (Point α)) :=
  (List.range (s.degree + 1)).mapM fun j => do
    let i ← position? (j + k) s.degree
    s.control[i]?

variable [Add α] [Sub α] [Mul α] [Div α] [Neg α] [Zero α] [One α] [LT α] [DecidableLT α] [Scalar α]

/-- The weight of the second of two neighbours; a span that is too narrow gives it none. -/
def weight? (s : Spline α) (t : α) (k level j : Nat) : Option α := do
  let i ← position? (j + k) s.degree
  let upper ← position? (i + s.degree + 1) level
  let right ← s.knots[upper]?
  let left ← s.knots[i]?
  let width := right - left
  if isNegligible Scalar.knotTolerance width then some 0 else some ((t - left) / width)

/-- The point between two others at a weight. -/
def blend (weight : α) (p q : Point α) : Point α :=
  ⟨(1 - weight) * p.x + weight * q.x, (1 - weight) * p.y + weight * q.y⟩

/-- The blends of all neighbours among the points from position `j - 1` on. -/
def blendLevel? (s : Spline α) (t : α) (k level : Nat) :
    Nat → List (Point α) → Option (List (Point α))
  | j, p :: q :: rest => do
    let weight ← s.weight? t k level j
    let others ← s.blendLevel? t k level (j + 1) (q :: rest)
    some (blend weight p q :: others)
  | _, _ => some []

def blendLevels? (s : Spline α) (t : α) (k : Nat) :
    Nat → Nat → List (Point α) → Option (List (Point α))
  | 0, _, points => some points
  | left + 1, level, points => do
    let points ← s.blendLevel? t k level level points
    s.blendLevels? t k left (level + 1) points

/-- The point of the curve at a parameter. -/
def point? [LE α] [DecidableLE α] (s : Spline α) (t : α) : Option (Point α) := do
  let k ← s.span? t
  let points ← s.support? k
  let top ← s.blendLevels? t k s.degree 1 points
  top.head?

/-- The curve at equal steps of its parameter, if it has a domain. -/
def curve? [LE α] [DecidableLE α] (s : Spline α) (tess : Tessellation) : Option (Polyline α) := do
  let (first, last) ← s.domain?
  let points ← (tess.parameters first (last - first) (tess.segments + 1)).mapM s.point?
  some ⟨points⟩

end Spline

end Turnery
