import Mathlib.Algebra.BigOperators.Group.List.Basic
import Mathlib.Tactic.LinearCombination
import Turnery.Proofs.Curve.Steps
import Turnery.Proofs.Drawing.Levels
import Turnery.Proofs.Drawing.Occurrence

/-!
# Similarity of placed blocks

An insertion with one scale for both axes draws its block as a similar figure, however it is turned
and wherever its base point comes to lie. Insertions one inside the other multiply their scales:
`squaredDistance_carriedBy` goes through a chain of them, and each step multiplies squared distances
by the square of its scale (`squaredDistance_carry`). Where all scales are one a block is drawn
congruent to its definition.
-/

namespace Turnery

variable {α : Type} [CommRing α]

namespace Point

/-- The square of the distance between two points. -/
def squaredDistance (p q : Point α) : α :=
  (p.x - q.x) * (p.x - q.x) + (p.y - q.y) * (p.y - q.y)

theorem distance_eq_sqrt [Scalar α] (p q : Point α) :
    p.distance q = Scalar.sqrt (p.squaredDistance q) := rfl

theorem squaredDistance_translate (p q v : Point α) :
    (p.translate v).squaredDistance (q.translate v) = p.squaredDistance q := by
  simp only [squaredDistance, translate]
  ring

theorem squaredDistance_stretch (s : α) (p q : Point α) :
    (p.stretch s s).squaredDistance (q.stretch s s) = s ^ 2 * p.squaredDistance q := by
  simp only [squaredDistance, stretch]
  ring

theorem squaredDistance_rotate [Scalar α]
    (hcircle : ∀ a : α, Scalar.cos a ^ 2 + Scalar.sin a ^ 2 = 1) (degrees : α) (p q : Point α) :
    (p.rotate degrees).squaredDistance (q.rotate degrees) = p.squaredDistance q := by
  simp only [squaredDistance, rotate]
  linear_combination ((p.x - q.x) ^ 2 + (p.y - q.y) ^ 2) * hcircle (Scalar.radians degrees)

end Point

namespace Placement

variable [Scalar α]

/-- Every insertion of a chain has one scale for both axes. -/
def IsUniform (chain : List (Insertion α × Block α)) : Prop :=
  ∀ link ∈ chain, link.1.scaleX = link.1.scaleY

/-- The scales of the insertions of a chain, multiplied. -/
def chainScale (chain : List (Insertion α × Block α)) : α :=
  (chain.map fun link => link.1.scaleX).prod

section Circle

variable (hcircle : ∀ a : α, Scalar.cos a ^ 2 + Scalar.sin a ^ 2 = 1)

include hcircle

/-- One insertion. -/
theorem squaredDistance_carry {insertion : Insertion α} (h : insertion.scaleX = insertion.scaleY)
    (base p q : Point α) :
    (insertion.carry base p).squaredDistance (insertion.carry base q) =
      insertion.scaleX ^ 2 * p.squaredDistance q := by
  rw [Insertion.carry, Insertion.carry, Point.squaredDistance_translate,
    Point.squaredDistance_rotate hcircle, ← h, Point.squaredDistance_stretch]
  simp only [Point.squaredDistance]
  ring

/-- A chain of insertions. -/
theorem squaredDistance_carriedBy {chain : List (Insertion α × Block α)} (h : IsUniform chain)
    (p q : Point α) :
    (carriedBy chain p).squaredDistance (carriedBy chain q) =
      chainScale chain ^ 2 * p.squaredDistance q := by
  induction chain with
  | nil => simp [carriedBy, chainScale]
  | cons link chain ih =>
    obtain ⟨hlink, hchain⟩ := List.forall_mem_cons.1 h
    calc
      _ = link.1.scaleX ^ 2 * (carriedBy chain p).squaredDistance (carriedBy chain q) :=
        squaredDistance_carry hcircle hlink _ _ _
      _ = (link.1.scaleX * chainScale chain) ^ 2 * p.squaredDistance q := by
        rw [ih hchain, mul_pow, mul_assoc]

/-- The map of a chain. -/
theorem squaredDistance_chainMap {chain : List (Insertion α × Block α)} (h : IsUniform chain)
    (p q : Point α) :
    ((chainMap .identity chain).apply p).squaredDistance ((chainMap .identity chain).apply q) =
      chainScale chain ^ 2 * p.squaredDistance q := by
  simp only [apply_chainMap, Affine.apply_identity]
  exact squaredDistance_carriedBy hcircle h p q

end Circle

variable [Div α] [LT α] [LE α] [DecidableLT α] [DecidableLE α] [DecidableEq α]

/-- What an entity draws under a map is the image of what it draws by itself. -/
theorem place_eq_map_place (tess : Tessellation) (drawing : Drawing α) (room : Nat) (m : Affine α)
    (entity : Entity α) :
    place tess drawing room m entity =
      (place tess drawing room .identity entity).map (List.map (Polyline.map m)) := by
  rw [place_identity, place_eq_map_levels]

/-- A leaf is drawn as its shape under the map of the insertions above it. -/
theorem map_chainMap_mem_linework {tess : Tessellation} {drawing : Drawing α} {o : Occurrence α}
    (h : IsLeaf tess drawing o) (hpoints : (shape tess o.entity).points ≠ []) :
    (shape tess o.entity).map (chainMap .identity o.chain) ∈ (linework tess drawing).polylines := by
  rw [polylines_linework, flatMap_drawn_place, List.mem_filter]
  refine ⟨List.mem_map.2 ⟨o, (mem_leaves tess drawing).2 h, moved_eq_map _ _⟩, ?_⟩
  simpa [Polyline.isEmpty, Polyline.map] using hpoints

/-- Insertions one inside the other, each with one scale for both axes, multiply squared distances
by the square of the product of their scales. The map that does so is the one under which the leaves
of a drawing are drawn, and under which whatever a block holds is drawn as an image of itself; with
unit scales it keeps all distances. -/
theorem squaredDistance_placed (hcircle : ∀ a : α, Scalar.cos a ^ 2 + Scalar.sin a ^ 2 = 1) :
    (∀ chain : List (Insertion α × Block α), IsUniform chain → ∀ p q : Point α,
        ((chainMap .identity chain).apply p).squaredDistance ((chainMap .identity chain).apply q) =
          chainScale chain ^ 2 * p.squaredDistance q) ∧
      (∀ (tess : Tessellation) (drawing : Drawing α) (o : Occurrence α), IsLeaf tess drawing o →
        (shape tess o.entity).points ≠ [] →
          (shape tess o.entity).map (chainMap .identity o.chain) ∈
            (linework tess drawing).polylines) ∧
      ∀ chain : List (Insertion α × Block α),
        (∀ link ∈ chain, link.1.scaleX = 1 ∧ link.1.scaleY = 1) →
        (∀ p q : Point α,
          ((chainMap .identity chain).apply p).distance ((chainMap .identity chain).apply q) =
            p.distance q) ∧
        ∀ (tess : Tessellation) (drawing : Drawing α) (room : Nat) (entity : Entity α),
          place tess drawing room (chainMap .identity chain) entity =
            (place tess drawing room .identity entity).map
              (List.map (Polyline.map (chainMap .identity chain))) := by
  refine ⟨fun chain => squaredDistance_chainMap hcircle,
    fun tess drawing o => map_chainMap_mem_linework, ?_⟩
  intro chain hunit
  refine ⟨fun p q => ?_, fun tess drawing room entity =>
    place_eq_map_place tess drawing room _ entity⟩
  have huniform : IsUniform chain :=
    fun link hlink => (hunit link hlink).1.trans (hunit link hlink).2.symm
  have hscale : chainScale chain = 1 := List.prod_eq_one (by
    rintro _ hs
    obtain ⟨link, hlink, rfl⟩ := List.mem_map.1 hs
    exact (hunit link hlink).1)
  rw [Point.distance_eq_sqrt, squaredDistance_chainMap hcircle huniform, hscale, one_pow, one_mul,
    ← Point.distance_eq_sqrt]

/-- A bar of length 5 in a block that is inserted with scale -3 into one inserted with scale 2; and
with scale 1. -/
theorem squaredDistance_placed_nested :
    let outer : Insertion ℝ := ⟨"outer", ⟨5, 5⟩, 2, 2, 30⟩
    let inner : Insertion ℝ := ⟨"inner", ⟨1, 1⟩, -3, -3, 45⟩
    let bar : Block ℝ := ⟨⟨0, 2⟩, [.line ⟨0, 0⟩ ⟨3, 4⟩]⟩
    let frame : Block ℝ := ⟨⟨1, 0⟩, [.insert inner]⟩
    let drawing : Drawing ℝ := ⟨[.insert outer], [("outer", frame), ("inner", bar)]⟩
    let o : Occurrence ℝ := ⟨[0, 0, 0], [(outer, frame), (inner, bar)], .line ⟨0, 0⟩ ⟨3, 4⟩⟩
    let unit : List (Insertion ℝ × Block ℝ) := [({ outer with scaleX := 1, scaleY := 1 }, bar)]
    let tess := Tessellation.ofNat 4
    ((∀ a : ℝ, Scalar.cos a ^ 2 + Scalar.sin a ^ 2 = 1) ∧ IsUniform o.chain ∧
      IsLeaf tess drawing o) ∧
      ((chainMap .identity o.chain).apply ⟨0, 0⟩).squaredDistance
        ((chainMap .identity o.chain).apply ⟨3, 4⟩) = 900 ∧
      (shape tess o.entity).map (chainMap .identity o.chain) ∈ (linework tess drawing).polylines ∧
      ((chainMap .identity unit).apply ⟨0, 0⟩).distance ((chainMap .identity unit).apply ⟨3, 4⟩) =
        Point.distance (⟨0, 0⟩ : Point ℝ) ⟨3, 4⟩ := by
  intro outer inner bar frame drawing o unit tess
  have hcircle : ∀ a : ℝ, Scalar.cos a ^ 2 + Scalar.sin a ^ 2 = 1 := Real.cos_sq_add_sin_sq
  have huniform : IsUniform o.chain := by
    intro link hlink
    simp only [o, List.mem_cons, List.not_mem_nil, or_false] at hlink
    rcases hlink with rfl | rfl <;> rfl
  have hleaf : IsLeaf tess drawing o := by
    refine ⟨?_, ⟨rfl, trivial, rfl⟩, by decide⟩
    have hbar : Reaches drawing bar.entities ⟨[0], [], .line ⟨0, 0⟩ ⟨3, 4⟩⟩ := .here rfl
    have hframe : Reaches drawing frame.entities ⟨[0, 0], [(inner, bar)], .line ⟨0, 0⟩ ⟨3, 4⟩⟩ :=
      .inside rfl rfl hbar
    exact .inside rfl rfl hframe
  have hunit : ∀ link ∈ unit, link.1.scaleX = 1 ∧ link.1.scaleY = 1 := by
    intro link hlink
    obtain rfl := List.mem_singleton.1 hlink
    exact ⟨rfl, rfl⟩
  obtain ⟨hsquares, hdrawn, hcongruent⟩ := squaredDistance_placed hcircle
  refine ⟨⟨hcircle, huniform, hleaf⟩, ?_, hdrawn tess drawing o hleaf (List.cons_ne_nil _ _),
    (hcongruent unit hunit).1 _ _⟩
  rw [hsquares o.chain huniform]
  norm_num [chainScale, o, outer, inner, Point.squaredDistance]

end Placement

end Turnery
