import Turnery.Drawing.Placement

/-!
# Equations of the placement

Entities other than insertions are drawn by themselves. `finiteOutline_eq` separates whether such an
entity can be drawn from what its outline is, and `place_of_insertion?_eq_none` says that its
placing then depends on the map alone. An insertion is placed by what its block draws; `drawn` is
what is left of an attempt.
-/

namespace Turnery

variable {α : Type}

/-- The insertion that an entity is, if it is one. -/
def Entity.insertion? : Entity α → Option (Insertion α)
  | .insert insertion => some insertion
  | _ => none

theorem Entity.insertion?_eq_some_iff {entity : Entity α} {insertion : Insertion α} :
    entity.insertion? = some insertion ↔ entity = .insert insertion := by
  cases entity <;> simp [insertion?]

namespace Placement

/-- The polylines of an attempt, none if it failed. -/
def drawn : Except (Failure α) (List (Polyline α)) → List (Polyline α)
  | .ok lines => lines
  | .error _ => []

@[simp] theorem drawn_ok (lines : List (Polyline α)) :
    drawn (.ok lines : Except (Failure α) (List (Polyline α))) = lines := rfl

@[simp] theorem drawn_error (failure : Failure α) : drawn (.error failure) = [] := rfl

theorem drawn_map (f : Polyline α → Polyline α) (attempt : Except (Failure α) (List (Polyline α))) :
    drawn (attempt.map (List.map f)) = (drawn attempt).map f := by
  cases attempt <;> rfl

section Check

variable [Zero α] [LT α] [DecidableLT α] [Scalar α]

/-- The numbers that an entity is made of pass its own check: a radius is finite and positive, an
ellipse has a positive ratio and a finite axis. -/
def PassesCheck : Entity α → Prop
  | .circle _ radius | .arc _ radius _ _ => Scalar.isFinite radius = true ∧ 0 < radius
  | .ellipse _ axis ratio _ _ => 0 < ratio ∧ axis.isFinite = true
  | .line .. | .polyline .. | .spline .. | .insert _ => True

instance : (entity : Entity α) → Decidable (PassesCheck entity)
  | .circle _ radius | .arc _ radius _ _ =>
    inferInstanceAs (Decidable (Scalar.isFinite radius = true ∧ 0 < radius))
  | .ellipse _ axis ratio _ _ => inferInstanceAs (Decidable (0 < ratio ∧ axis.isFinite = true))
  | .line .. | .polyline .. | .spline .. | .insert _ => isTrue trivial

theorem checkRadius_of_pos {radius : α} (h : Scalar.isFinite radius = true ∧ 0 < radius) :
    checkRadius radius = .ok () := by
  simp [checkRadius, h.1, h.2]

theorem checkRadius_of_not_pos {radius : α} (h : ¬(Scalar.isFinite radius = true ∧ 0 < radius)) :
    checkRadius radius = .error (.invalidRadius radius) := by
  simp [checkRadius, h]

end Check

variable [Add α] [Sub α] [Mul α] [Div α] [Neg α] [Zero α] [One α] [LT α] [LE α] [DecidableLT α]
  [DecidableLE α] [Scalar α] (tess : Tessellation)

/-- The polyline of an entity in its own coordinates, whether or not it passes its check. -/
def shape : Entity α → Polyline α
  | .line start finish => ⟨[start, finish]⟩
  | .polyline vertices closed => if closed then .closed vertices else ⟨vertices⟩
  | .circle center radius => tess.circle center radius
  | .arc center radius startAngle endAngle => tess.arc center radius startAngle endAngle
  | .ellipse center axis ratio start finish => tess.ellipse center axis ratio start finish
  | .spline curve fit => splineOutline tess curve fit
  | .insert _ => ⟨[]⟩

/-- An entity is drawn if it is no insertion, passes its check and has finite points only. -/
structure IsDrawable (entity : Entity α) : Prop where
  insertion? : entity.insertion? = none
  passesCheck : PassesCheck entity
  isFinite : (shape tess entity).isFinite = true

instance (entity : Entity α) : Decidable (IsDrawable tess entity) :=
  decidable_of_iff (entity.insertion?.isNone = true ∧ PassesCheck entity ∧
    (shape tess entity).isFinite = true)
    ⟨fun h => ⟨Option.isNone_iff_eq_none.1 h.1, h.2.1, h.2.2⟩,
      fun h => ⟨Option.isNone_iff_eq_none.2 h.insertion?, h.passesCheck, h.isFinite⟩⟩

/-- The outline of an entity that passes its check is its shape. -/
theorem outline_of_passesCheck {entity : Entity α} (h : PassesCheck entity) :
    outline tess entity = .ok (shape tess entity) := by
  cases entity with
  | circle center radius | arc center radius =>
    rw [outline, checkRadius_of_pos h]
    rfl
  | ellipse center axis ratio =>
    have hcheck : 0 < ratio ∧ axis.isFinite = true := h
    rw [outline, if_pos (by simpa using hcheck)]
    rfl
  | line | polyline | spline | insert => rfl

/-- An entity that fails its check has no outline. -/
theorem exists_outline_eq_error {entity : Entity α} (h : ¬PassesCheck entity) :
    ∃ failure, outline tess entity = .error failure := by
  cases entity with
  | circle center radius | arc center radius =>
    refine ⟨.invalidRadius radius, ?_⟩
    rw [outline, checkRadius_of_not_pos h]
    rfl
  | ellipse center axis ratio =>
    have hcheck : ¬(0 < ratio ∧ axis.isFinite = true) := h
    refine ⟨.degenerateEllipse, ?_⟩
    rw [outline, if_neg (by simpa using hcheck)]
  | line | polyline | spline | insert => exact absurd trivial h

theorem finiteOutline_of_isDrawable {entity : Entity α} (h : IsDrawable tess entity) :
    finiteOutline tess entity = .ok (shape tess entity) := by
  rw [finiteOutline, outline_of_passesCheck tess h.passesCheck]
  exact if_pos h.isFinite

theorem exists_finiteOutline_eq_error {entity : Entity α} (hentity : entity.insertion? = none)
    (h : ¬IsDrawable tess entity) : ∃ failure, finiteOutline tess entity = .error failure := by
  by_cases hcheck : PassesCheck entity
  · have hfinite : ¬(shape tess entity).isFinite = true :=
      fun hfinite => h ⟨hentity, hcheck, hfinite⟩
    refine ⟨.notFinite entity.kind, ?_⟩
    rw [finiteOutline, outline_of_passesCheck tess hcheck]
    exact if_neg hfinite
  · obtain ⟨failure, hfailure⟩ := exists_outline_eq_error tess hcheck
    refine ⟨failure, ?_⟩
    rw [finiteOutline, hfailure]
    rfl

variable [BEq α] (drawing : Drawing α)

/-- The room plays no part for an entity that is no insertion. -/
theorem place_of_insertion?_eq_none {entity : Entity α} (h : entity.insertion? = none) (room : Nat)
    (m : Affine α) :
    place tess drawing room m entity = (finiteOutline tess entity).map fun line =>
      [moved m line] := by
  cases entity with
  | insert insertion => cases h
  | line | polyline | circle | arc | ellipse | spline => cases room <;> rfl

theorem place_zero_insert (m : Affine α) (insertion : Insertion α) :
    place tess drawing 0 m (.insert insertion) = .error (.nestedTooDeep insertion.block) := rfl

theorem place_succ_insert (room : Nat) (m : Affine α) (insertion : Insertion α) :
    place tess drawing (room + 1) m (.insert insertion) =
      match drawing.block? insertion.block with
      | none => .error (.missingBlock insertion.block)
      | some block => .ok (block.entities.flatMap fun child =>
          drawn (place tess drawing room (m.comp (insertionMap insertion block.base)) child)) := rfl

/-- An entity that is no insertion leaves its shape under the map, or nothing. -/
theorem drawn_place_of_insertion?_eq_none {entity : Entity α} (h : entity.insertion? = none)
    (room : Nat) (m : Affine α) :
    drawn (place tess drawing room m entity) =
      if IsDrawable tess entity then [moved m (shape tess entity)] else [] := by
  rw [place_of_insertion?_eq_none tess drawing h]
  by_cases hdraw : IsDrawable tess entity
  · rw [finiteOutline_of_isDrawable tess hdraw, if_pos hdraw]
    rfl
  · obtain ⟨failure, hfailure⟩ := exists_finiteOutline_eq_error tess h hdraw
    rw [hfailure, if_neg hdraw]
    rfl

theorem polylines_linework :
    (linework tess drawing).polylines =
      (drawing.entities.flatMap fun entity => drawn
        (place tess drawing maxDepth .identity entity)).filter
        fun line => !line.isEmpty :=
  Linework.polylines_ofList _

end Placement

end Turnery
