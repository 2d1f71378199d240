import Turnery.Proofs.Drawing.Placement
import Turnery.Proofs.Geometry.Affine

/-!
# Placing level by level

Placing threads one matrix through all insertions. The rule that it stands for knows no matrices:
the entities of a block are placed in the block's own coordinates, and the insertion then carries
every point that came out, once for each level. `levels` evaluates a drawing by that rule, and over
a commutative ring `place_eq_map_levels` reduces the one to the other. The matrix under which an
entity is placed then acts on its points, whatever it is.
-/

namespace Turnery

variable {α : Type}

/-- The shortcut for the identity changes nothing. -/
theorem Placement.moved_eq_map [CommRing α] [DecidableEq α] (m : Affine α) (line : Polyline α) :
    moved m line = line.map m := by
  unfold moved
  split
  · rename_i h
    rw [Affine.eq_identity_of_isIdentity h, Polyline.map_identity]
  · rfl

variable [CommRing α] [Scalar α]

/-- Where an insertion takes a point of its block: from the base point, scaled and rotated, to the
position. -/
def Insertion.carry (insertion : Insertion α) (base p : Point α) : Point α :=
  let fromBase : Point α := ⟨p.x - base.x, p.y - base.y⟩
  ((fromBase.stretch insertion.scaleX insertion.scaleY).rotate insertion.rotation).translate
    insertion.position

def Polyline.carried (insertion : Insertion α) (base : Point α) (line : Polyline α) : Polyline α :=
  ⟨line.points.map (insertion.carry base)⟩

namespace Placement

theorem isAffine_insertionMap (insertion : Insertion α) (base : Point α) :
    (insertionMap insertion base).IsAffine :=
  (Affine.isAffine_insertion _ _ _ _).comp (Affine.isAffine_displacement _ _)

/-- The matrix of an insertion carries points. -/
theorem apply_insertionMap (insertion : Insertion α) (base p : Point α) :
    (insertionMap insertion base).apply p = insertion.carry base p := by
  have hshift : (Affine.displacement (-base.x) (-base.y)).apply p =
      ⟨p.x - base.x, p.y - base.y⟩ := by
    rw [Affine.apply_displacement ⟨-base.x, -base.y⟩]
    simp only [Point.translate, Point.mk.injEq]
    constructor <;> ring
  rw [insertionMap, Affine.apply_comp _ (Affine.isAffine_displacement _ _), hshift,
    Affine.apply_insertion]
  rfl

theorem map_insertionMap (insertion : Insertion α) (base : Point α) (line : Polyline α) :
    line.map (insertionMap insertion base) = line.carried insertion base := by
  rw [Polyline.map, Polyline.carried, funext (apply_insertionMap insertion base)]

variable [Div α] [LT α] [LE α] [DecidableLT α] [DecidableLE α] (tess : Tessellation)
  (drawing : Drawing α)

/-- The polylines of an entity in its own coordinates, by the rule for one level after the other. -/
def levels : Nat → Entity α → Except (Failure α) (List (Polyline α))
  | 0, .insert insertion => .error (.nestedTooDeep insertion.block)
  | room + 1, .insert insertion =>
    match drawing.block? insertion.block with
    | none => .error (.missingBlock insertion.block)
    | some block =>
      .ok ((block.entities.flatMap fun child => drawn (levels room child)).map
        (Polyline.carried insertion block.base))
  | _, entity => (finiteOutline tess entity).map fun line => [line]

theorem levels_of_insertion?_eq_none {entity : Entity α} (h : entity.insertion? = none)
    (room : Nat) :
    levels tess drawing room entity = (finiteOutline tess entity).map fun line => [line] := by
  cases entity with
  | insert insertion => cases h
  | line | polyline | circle | arc | ellipse | spline => cases room <;> rfl

variable [DecidableEq α]

theorem place_eq_map_levels_of_insertion?_eq_none {entity : Entity α} (h : entity.insertion? = none)
    (room : Nat) (m : Affine α) :
    place tess drawing room m entity = (levels tess drawing room entity).map
      (List.map (Polyline.map m)) := by
  rw [place_of_insertion?_eq_none tess drawing h, levels_of_insertion?_eq_none tess drawing h]
  cases finiteOutline tess entity with
  | error failure => rfl
  | ok line =>
    have hlines : [moved m line] = [line.map m] := by rw [moved_eq_map]
    exact congrArg Except.ok hlines

/-- Placing under a matrix is placing level by level and then applying the matrix. -/
theorem place_eq_map_levels (room : Nat) (m : Affine α) (entity : Entity α) :
    place tess drawing room m entity = (levels tess drawing room entity).map
      (List.map (Polyline.map m)) := by
  induction room generalizing m entity with
  | zero =>
    cases hentity : entity.insertion? with
    | none => exact place_eq_map_levels_of_insertion?_eq_none tess drawing hentity 0 m
    | some insertion =>
      obtain rfl := Entity.insertion?_eq_some_iff.1 hentity
      rfl
  | succ room ih =>
    cases hentity : entity.insertion? with
    | none => exact place_eq_map_levels_of_insertion?_eq_none tess drawing hentity (room + 1) m
    | some insertion =>
      obtain rfl := Entity.insertion?_eq_some_iff.1 hentity
      rw [place_succ_insert, levels]
      cases drawing.block? insertion.block with
      | none => rfl
      | some block =>
        -- The matrix for the block is the outer one after the carrying of this level.
        have hline : Polyline.map (m.comp (insertionMap insertion block.base)) =
            Polyline.map m ∘ Polyline.carried insertion block.base := by
          funext line
          rw [Polyline.map_comp m (isAffine_insertionMap _ _), map_insertionMap,
            Function.comp_apply]
        have hchild : ∀ child,
            drawn (place tess drawing room (m.comp (insertionMap insertion block.base)) child) =
            (drawn (levels tess drawing room child)).map
                (Polyline.map m ∘ Polyline.carried insertion block.base) := by
          intro child
          rw [ih, drawn_map, hline]
        simp only [hchild, Except.map, List.map_map, List.map_flatMap]

theorem place_identity (room : Nat) (entity : Entity α) :
    place tess drawing room .identity entity = levels tess drawing room entity := by
  have hid : (Polyline.map .identity : Polyline α → Polyline α) = id := funext Polyline.map_identity
  rw [place_eq_map_levels, hid, List.map_id_fun]
  cases levels tess drawing room entity <;> rfl

/-- A matrix acts on what an entity draws without it, failures included, and without it an entity
draws what the rule for one level after the other says. So does the drawing. -/
theorem placed_level_by_level :
    (∀ (room : Nat) (m : Affine α) (entity : Entity α),
      place tess drawing room m entity =
          (place tess drawing room .identity entity).map (List.map (Polyline.map m)) ∧
        place tess drawing room .identity entity = levels tess drawing room entity) ∧
      (linework tess drawing).polylines =
        (drawing.entities.flatMap fun entity => drawn (levels tess drawing maxDepth entity)).filter
          fun line => !line.isEmpty := by
  refine ⟨fun room m entity => ⟨?_, place_identity tess drawing room entity⟩, ?_⟩
  · rw [place_identity, place_eq_map_levels]
  · rw [polylines_linework]
    simp only [place_identity]

end Placement

end Turnery
