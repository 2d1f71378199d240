import Turnery.Geometry.Polyline

/-!
# Linework

The linework of a drawing is a list of polylines. The operations that build linework leave empty
polylines out: `polylines_push`, `polylines_extend` and `polylines_ofList` give each as a filter.
-/

namespace Turnery

/-- The polylines of a drawing, in order. -/
structure Linework (α : Type) where
  polylines : List (Polyline α)
  deriving DecidableEq, Repr

namespace Linework

variable {α : Type}

def empty : Linework α := ⟨[]⟩

/-- The linework with one more polyline, unless that is empty. -/
def push (work : Linework α) (line : Polyline α) : Linework α :=
  if line.isEmpty then work else ⟨work.polylines ++ [line]⟩

/-- The linework followed by the polylines of another. -/
def extend (work other : Linework α) : Linework α :=
  other.polylines.foldl push work

/-- The linework of a list of polylines. -/
def ofList (lines : List (Polyline α)) : Linework α :=
  lines.foldl push empty

@[simp] theorem polylines_empty : (empty : Linework α).polylines = [] := rfl

@[simp] theorem polylines_push (work : Linework α) (line : Polyline α) :
    (work.push line).polylines = work.polylines ++ [line].filter fun l => !l.isEmpty := by
  cases h : line.isEmpty <;> simp [push, h]

theorem polylines_foldl_push (lines : List (Polyline α)) (work : Linework α) :
    (lines.foldl push work).polylines = work.polylines ++ lines.filter fun l => !l.isEmpty := by
  induction lines generalizing work with
  | nil => simp
  | cons line lines ih =>
    rw [List.foldl_cons, ih, polylines_push, List.append_assoc, ← List.filter_append,
      List.singleton_append]

@[simp] theorem polylines_extend (work other : Linework α) :
    (work.extend other).polylines = work.polylines ++ other.polylines.filter fun l => !l.isEmpty :=
  polylines_foldl_push _ _

@[simp] theorem polylines_ofList (lines : List (Polyline α)) :
    (ofList lines).polylines = lines.filter fun l => !l.isEmpty := by
  simp [ofList, polylines_foldl_push]

def isEmpty (work : Linework α) : Bool :=
  work.polylines.all Polyline.isEmpty

def points (work : Linework α) : List (Point α) :=
  work.polylines.flatMap Polyline.points

/-- Polylines without points add no points. -/
theorem flatMap_points_filter (lines : List (Polyline α)) :
    (lines.filter fun l => !l.isEmpty).flatMap Polyline.points = lines.flatMap Polyline.points := by
  induction lines with
  | nil => rfl
  | cons line lines ih =>
    cases h : line.isEmpty with
    | false => rw [List.filter_cons_of_pos (by simp [h]), List.flatMap_cons, List.flatMap_cons, ih]
    | true =>
      have hnone : line.points = [] := List.isEmpty_iff.1 h
      rw [List.filter_cons_of_neg (by simp [h]), List.flatMap_cons, hnone, List.nil_append, ih]

theorem points_extend (work other : Linework α) :
    (work.extend other).points = work.points ++ other.points := by
  rw [points, polylines_extend, List.flatMap_append, flatMap_points_filter]
  rfl

def polylineCount (work : Linework α) : Nat :=
  work.polylines.length

def pointCount (work : Linework α) : Nat :=
  work.points.length

/-- The image under a map, rebuilt as linework. -/
def map [Add α] [Mul α] [One α] (m : Affine α) (work : Linework α) : Linework α :=
  ofList (work.polylines.map (Polyline.map m))

def length (work : Linework Float) : Float :=
  Polyline.total (work.polylines.map Polyline.length)

end Linework

end Turnery
