import Mathlib.Tactic.TFAE
import Turnery.Geometry.Bounds

/-!
# Linework without empty polylines

Whatever is put into linework one after the other, polylines without points are left out:
`Built.isPopulated`. For linework of which every polyline has points the ways to say that there is
nothing in it come to the same: `IsPopulated.tfae`.
-/

namespace Turnery.Linework

variable {α : Type} {work : Linework α}

/-- Every polyline has points. -/
def IsPopulated (work : Linework α) : Prop :=
  ∀ line ∈ work.polylines, line.points ≠ []

/-- The linework comes about from nothing: polylines are pushed, other linework is added, whatever
that holds, or polylines of any origin are collected. -/
inductive Built : Linework α → Prop where
  | empty : Built .empty
  | push {work : Linework α} (line : Polyline α) (built : Built work) : Built (work.push line)
  | extend {work : Linework α} (other : Linework α) (built : Built work) : Built (work.extend other)
  | ofList (lines : List (Polyline α)) : Built (.ofList lines)

theorem isPopulated_empty : (empty : Linework α).IsPopulated :=
  List.forall_mem_nil _

/-- What is taken in is not empty. -/
theorem points_ne_nil_of_mem_filter {lines : List (Polyline α)} {line : Polyline α}
    (h : line ∈ lines.filter fun l => !l.isEmpty) : line.points ≠ [] := by
  have hkept : (!line.points.isEmpty) = true := (List.mem_filter.1 h).2
  intro hnil
  rw [hnil] at hkept
  exact Bool.false_ne_true hkept

theorem IsPopulated.push (h : work.IsPopulated) (line : Polyline α) :
    (work.push line).IsPopulated := by
  intro other hother
  rw [polylines_push, List.mem_append] at hother
  exact hother.elim (h other) points_ne_nil_of_mem_filter

theorem IsPopulated.extend (h : work.IsPopulated) (other : Linework α) :
    (work.extend other).IsPopulated := by
  intro line hline
  rw [polylines_extend, List.mem_append] at hline
  exact hline.elim (h line) points_ne_nil_of_mem_filter

theorem isPopulated_ofList (lines : List (Polyline α)) : (ofList lines).IsPopulated := by
  intro line hline
  rw [polylines_ofList] at hline
  exact points_ne_nil_of_mem_filter hline

theorem Built.isPopulated (h : work.Built) : work.IsPopulated := by
  induction h with
  | empty => exact isPopulated_empty
  | push line _ ih => exact ih.push line
  | extend other _ ih => exact ih.extend other
  | ofList lines => exact isPopulated_ofList lines

/-- Of linework whose polylines all have points nothing is left out. -/
theorem IsPopulated.polylines_extend {other : Linework α} (h : other.IsPopulated)
    (work : Linework α) :
    (work.extend other).polylines = work.polylines ++ other.polylines := by
  rw [Linework.polylines_extend, List.filter_eq_self.2]
  intro line hline
  rw [Polyline.isEmpty, List.isEmpty_eq_false_iff.2 (h line hline)]
  rfl

theorem isEmpty_iff_points_eq_nil : work.isEmpty = true ↔ work.points = [] := by
  simp [isEmpty, points, Polyline.isEmpty]

/-- Linework whose polylines all have points is without points if it is without polylines. -/
theorem IsPopulated.points_eq_nil_iff (h : work.IsPopulated) :
    work.points = [] ↔ work.polylines = [] := by
  constructor
  · intro hpoints
    rw [List.eq_nil_iff_forall_not_mem]
    intro line hline
    exact h line hline (List.flatMap_eq_nil_iff.1 hpoints line hline)
  · intro hnone
    rw [points, hnone, List.flatMap_nil]

theorem bounds_eq_none_iff [LT α] [DecidableLT α] [BEq α] :
    work.bounds = none ↔ work.points = [] := by
  unfold bounds Bounds.ofPoints
  cases work.points with
  | nil => simp
  | cons p ps => simp

/-- Nothing is found exactly if there is no polyline, no point, and no box around the points. -/
theorem IsPopulated.tfae [LT α] [DecidableLT α] [BEq α] (h : work.IsPopulated) :
    [work.isEmpty = true, work.polylineCount = 0, work.pointCount = 0,
      work.bounds = none].TFAE := by
  tfae_have 1 ↔ 3 := isEmpty_iff_points_eq_nil.trans List.length_eq_zero_iff.symm
  tfae_have 2 ↔ 3 :=
    List.length_eq_zero_iff.trans (h.points_eq_nil_iff.symm.trans List.length_eq_zero_iff.symm)
  tfae_have 4 ↔ 3 := bounds_eq_none_iff.trans List.length_eq_zero_iff.symm
  tfae_finish

end Turnery.Linework
