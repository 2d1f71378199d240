import Turnery.Dxf.Scan
import Turnery.Import.Record
import Turnery.Proofs.Drawing.Occurrence
import Turnery.Proofs.Fault
import Turnery.Proofs.Svg.Overflow
import Turnery.Svg.Document

/-!
# Finite points

A point without finite coordinates must not get into a program. Every reader of drawings has its own
way of keeping such points out, and most are not tight: entities are checked before insertions move
them, records before circles are drawn around their centers, and path data not at all.
`isFinite_or_overflow` says for each reader which points are finite and what has overflowed where
one is not.
-/

namespace Turnery

theorem Linework.mem_points_ofList {lines : List (Polyline Float)} {p : Point Float}
    (h : p ∈ (Linework.ofList lines).points) : ∃ line ∈ lines, p ∈ line.points := by
  obtain ⟨line, hline, hp⟩ := List.mem_flatMap.1 h
  rw [Linework.polylines_ofList] at hline
  exact ⟨line, (List.mem_filter.1 hline).1, hp⟩

theorem Linework.mem_points_extend {work other : Linework Float} {p : Point Float}
    (h : p ∈ (work.extend other).points) : p ∈ work.points ∨ p ∈ other.points := by
  rwa [points_extend, List.mem_append] at h

namespace Placement

variable {tess : Tessellation} {drawing : Drawing Float}

/-- The point has been moved by insertions from a finite point of an entity that is drawn. -/
def IsMovedByInsertions (tess : Tessellation) (drawing : Drawing Float) (p : Point Float) : Prop :=
  ∃ o, IsLeaf tess drawing o ∧ o.chain ≠ [] ∧
    ∃ q ∈ (shape tess o.entity).points, q.isFinite = true ∧ p = (chainMap .identity o.chain).apply q

theorem exists_leaf_of_mem_points {p : Point Float} (h : p ∈ (linework tess drawing).points) :
    ∃ o, IsLeaf tess drawing o ∧ p ∈ (o.polyline tess .identity).points := by
  obtain ⟨line, hline, hp⟩ := List.mem_flatMap.1 h
  rw [polylines_linework, flatMap_drawn_place] at hline
  obtain ⟨o, ho, rfl⟩ := List.mem_map.1 (List.mem_filter.1 hline).1
  exact ⟨o, (mem_leaves tess drawing).1 ho, hp⟩

theorem isFinite_of_mem_shape {entity : Entity Float} (h : IsDrawable tess entity) {q : Point Float}
    (hq : q ∈ (shape tess entity).points) : q.isFinite = true :=
  List.all_eq_true.1 h.isFinite q hq

/-- The check of an entity covers what is not inserted. -/
theorem isFinite_or_isMovedByInsertions {p : Point Float} (h : p ∈ (linework tess drawing).points) :
    p.isFinite = true ∨ IsMovedByInsertions tess drawing p := by
  obtain ⟨o, hleaf, hp⟩ := exists_leaf_of_mem_points h
  rw [Occurrence.polyline] at hp
  split at hp
  · exact .inl (isFinite_of_mem_shape hleaf.drawable hp)
  · rename_i hmoved
    obtain ⟨q, hq, rfl⟩ := List.mem_map.1 hp
    have hchain : o.chain ≠ [] := by
      intro hnil
      rw [hnil] at hmoved
      exact hmoved (by decide +kernel)
    exact .inr ⟨o, hleaf, hchain, q, hq, isFinite_of_mem_shape hleaf.drawable hq, rfl⟩

theorem chain_eq_nil_of_blocks_eq_nil (hblocks : drawing.blocks = [])
    {entities : List (Entity Float)} {o : Occurrence Float} (h : Reaches drawing entities o) :
    o.chain = [] := by
  cases h with
  | here => rfl
  | inside _ hblock =>
    rw [Drawing.block?, hblocks, List.lookup_nil] at hblock
    exact absurd hblock (by simp)

/-- A drawing without blocks inserts nothing. -/
theorem isFinite_of_blocks_eq_nil (hblocks : drawing.blocks = []) {p : Point Float}
    (h : p ∈ (linework tess drawing).points) : p.isFinite = true := by
  obtain hfinite | ⟨o, hleaf, hchain, -⟩ := isFinite_or_isMovedByInsertions h
  · exact hfinite
  · exact absurd (chain_eq_nil_of_blocks_eq_nil hblocks hleaf.reached) hchain

end Placement

namespace Tessellation

/-- The point belongs to a circle with a finite center and a finite radius. -/
def IsOnFiniteCircle (p : Point Float) : Prop :=
  ∃ (center : Point Float) (radius t : Float),
    center.isFinite = true ∧ radius.isFinite = true ∧ 0 < radius ∧
    p = circlePoint center radius t

theorem exists_circlePoint_of_mem_circle {tess : Tessellation} {center p : Point Float}
    {radius : Float} (h : p ∈ (tess.circle center radius).points) :
    ∃ t, p = circlePoint center radius t := by
  have hmem : p ∈ (List.range tess.segments).map fun i =>
      circlePoint center radius (Scalar.tau * Scalar.ofNat i / Scalar.ofNat tess.segments) := by
    rcases List.mem_append.1 h with h | h
    · exact h
    · exact List.mem_of_mem_head? (Option.mem_toList.1 h)
  obtain ⟨i, -, rfl⟩ := List.mem_map.1 hmem
  exact ⟨_, rfl⟩

theorem exists_circlePoint_of_mem_arc {tess : Tessellation} {center p : Point Float}
    {radius startDegrees endDegrees : Float}
    (h : p ∈ (tess.arc center radius startDegrees endDegrees).points) :
    ∃ t, p = circlePoint center radius t := by
  obtain ⟨t, -, rfl⟩ := List.mem_map.1 h
  exact ⟨t, rfl⟩

end Tessellation

namespace Import.Record

theorem isFinite_of_number? {value : Json.Value} {x : Float} (h : number? value = some x) :
    x.isFinite = true :=
  (Option.filter_eq_some_iff.1 h).2

theorem isFinite_of_field? {record : Json.Value} {name : String} {x : Float}
    (h : field? record name = some x) :
    x.isFinite = true := by
  obtain ⟨value, -, hvalue⟩ := Option.bind_eq_some_iff.1 h
  exact isFinite_of_number? hvalue

theorem isFinite_of_point? {value : Json.Value} {p : Point Float} (h : point? value = some p) :
    p.isFinite = true := by
  unfold point? at h
  split at h
  · obtain ⟨x, hx, h⟩ := Option.bind_eq_some_iff.1 h
    obtain ⟨y, hy, h⟩ := Option.bind_eq_some_iff.1 h
    obtain rfl := Option.some.inj h
    exact Point.isFinite_iff.2 ⟨isFinite_of_number? hx, isFinite_of_number? hy⟩
  · nomatch h

theorem isFinite_of_mapM_point? {items : List Json.Value} {points : List (Point Float)}
    (h : items.mapM point? = some points) : ∀ p ∈ points, p.isFinite = true := by
  have heach := (mapM_eq_some_iff.1 h).flip.imp fun p item hp =>
    And.intro (isFinite_of_point? hp) hp
  exact ((List.forall₂_and_left _ _).1 heach).1

theorem isFinite_of_center? {record : Json.Value} {center : Point Float}
    (h : center? record = some center) :
    center.isFinite = true := by
  obtain ⟨x, hx, h⟩ := Option.bind_eq_some_iff.1 h
  obtain ⟨y, hy, h⟩ := Option.bind_eq_some_iff.1 h
  obtain rfl := Option.some.inj h
  exact Point.isFinite_iff.2 ⟨isFinite_of_field? hx, isFinite_of_field? hy⟩

theorem isFinite_pos_of_radius? {record : Json.Value} {radius : Float}
    (h : radius? record = some radius) :
    radius.isFinite = true ∧ 0 < radius := by
  obtain ⟨hfield, hpos⟩ := Option.filter_eq_some_iff.1 h
  exact ⟨isFinite_of_field? hfield, of_decide_eq_true hpos⟩

/-- The numbers of a record are checked, the points of its curve are not. -/
theorem isFinite_or_isOnFiniteCircle {tess : Tessellation} {record : Json.Value}
    {line : Polyline Float} (h : polyline? tess record = some line) {p : Point Float}
    (hp : p ∈ line.points) :
    p.isFinite = true ∨ Tessellation.IsOnFiniteCircle p := by
  obtain ⟨kind, -, h⟩ := Option.bind_eq_some_iff.1 h
  split at h
  · obtain ⟨items, -, h⟩ := Option.bind_eq_some_iff.1 h
    obtain ⟨points, hpoints, h⟩ := Option.bind_eq_some_iff.1 h
    obtain rfl := Option.some.inj h
    exact .inl (isFinite_of_mapM_point? hpoints p hp)
  · obtain ⟨center, hcenter, h⟩ := Option.bind_eq_some_iff.1 h
    obtain ⟨radius, hradius, h⟩ := Option.bind_eq_some_iff.1 h
    obtain rfl := Option.some.inj h
    obtain ⟨t, rfl⟩ := Tessellation.exists_circlePoint_of_mem_circle hp
    obtain ⟨hfinite, hpos⟩ := isFinite_pos_of_radius? hradius
    exact .inr ⟨center, radius, t, isFinite_of_center? hcenter, hfinite, hpos, rfl⟩
  · obtain ⟨center, hcenter, h⟩ := Option.bind_eq_some_iff.1 h
    obtain ⟨radius, hradius, h⟩ := Option.bind_eq_some_iff.1 h
    obtain ⟨startAngle, -, h⟩ := Option.bind_eq_some_iff.1 h
    obtain ⟨endAngle, -, h⟩ := Option.bind_eq_some_iff.1 h
    obtain rfl := Option.some.inj h
    obtain ⟨t, rfl⟩ := Tessellation.exists_circlePoint_of_mem_arc hp
    obtain ⟨hfinite, hpos⟩ := isFinite_pos_of_radius? hradius
    exact .inr ⟨center, radius, t, isFinite_of_center? hcenter, hfinite, hpos, rfl⟩
  · nomatch h

theorem isFinite_or_isOnFiniteCircle_of_read {tess : Tessellation} {text : String}
    {work : Linework Float} (h : read tess text = .ok work) {p : Point Float}
    (hp : p ∈ work.points) :
    p.isFinite = true ∨ Tessellation.IsOnFiniteCircle p := by
  unfold read at h
  split at h
  · nomatch h
  · split at h
    · nomatch h
    · split at h
      · nomatch h
      · split at h
        · rename_i records
          obtain rfl := Except.ok.inj h
          obtain ⟨line, hline, hp⟩ := Linework.mem_points_ofList hp
          obtain ⟨record, -, hrecord⟩ := List.mem_filterMap.1 hline
          exact isFinite_or_isOnFiniteCircle hrecord hp
        · nomatch h

end Import.Record

namespace Svg.Document

theorem exists_pathData_of_mem_points {text : String} {p : Point Float}
    (h : p ∈ (linework text).points) :
    ∃ data ∈ pathData text.toList, p ∈ (PathData.linework data).points := by
  have hmem : ∀ (all : List (List Char)) (work : Linework Float),
      p ∈ (all.foldl (fun work data => work.extend (PathData.linework data)) work).points →
        p ∈ work.points ∨ ∃ data ∈ all, p ∈ (PathData.linework data).points := by
    intro all
    induction all with
    | nil => exact fun _ h => .inl h
    | cons data rest ih =>
      intro work h
      obtain h | ⟨other, hother, h⟩ := ih _ h
      · exact (Linework.mem_points_extend h).imp id fun h => ⟨data, List.mem_cons_self, h⟩
      · exact .inr ⟨other, List.mem_cons_of_mem _ hother, h⟩
  obtain h | h := hmem _ _ h
  · nomatch h
  · exact h

/-- The point is drawn by path data that has a number or a relative sum too large for a double. -/
def IsDrawnByOverflow (text : String) (p : Point Float) : Prop :=
  ∃ data ∈ pathData text.toList, p ∈ (PathData.linework data).points ∧
    (PathData.HasHugeNumber data ∨ PathData.HasHugeSum data)

theorem isFinite_or_isDrawnByOverflow {text : String} {p : Point Float}
    (h : p ∈ (linework text).points) :
    p.isFinite = true ∨ IsDrawnByOverflow text p := by
  obtain ⟨data, hdata, hp⟩ := exists_pathData_of_mem_points h
  by_cases hnumber : PathData.HasHugeNumber data
  · exact .inr ⟨data, hdata, hp, .inl hnumber⟩
  · by_cases hsum : PathData.HasHugeSum data
    · exact .inr ⟨data, hdata, hp, .inr hsum⟩
    · exact .inl (PathData.isFinite_of_mem_points hnumber hsum hp)

end Svg.Document

namespace Import

/-- Scanned drawings have finite points only. A drawing with blocks has others only where insertions
move finite points, records only on circles around finite centers, and a document only where its
path data overflows. -/
theorem isFinite_or_overflow (tess : Tessellation) :
    (∀ text, ∀ p ∈ (Placement.linework tess (Dxf.Scan.drawing text)).points, p.isFinite = true) ∧
      (∀ drawing : Drawing Float, ∀ p ∈ (Placement.linework tess drawing).points,
        p.isFinite = true ∨ Placement.IsMovedByInsertions tess drawing p) ∧
      (∀ text work, Record.read tess text = .ok work →
        ∀ p ∈ work.points, p.isFinite = true ∨ Tessellation.IsOnFiniteCircle p) ∧
      (∀ text, ∀ p ∈ (Svg.Document.linework text).points,
        p.isFinite = true ∨ Svg.Document.IsDrawnByOverflow text p) := by
  refine ⟨fun text p hp => ?_, fun drawing p hp => ?_, fun text work hread p hp => ?_,
    fun text p hp => ?_⟩
  · exact Placement.isFinite_of_blocks_eq_nil rfl hp
  · exact Placement.isFinite_or_isMovedByInsertions hp
  · exact Record.isFinite_or_isOnFiniteCircle_of_read hread hp
  · exact Svg.Document.isFinite_or_isDrawnByOverflow hp

/-- One drawing for each reader; the document draws a point that is infinitely far away. -/
theorem isFinite_or_overflow_of_each :
    let tess := Tessellation.ofNat 4
    let scanned := Dxf.Scan.drawing "0\nLINE\n11\n7\n"
    let drawing : Drawing Float := .ofEntities [.line ⟨0, 0⟩ ⟨1, 0⟩]
    let records := "[\x7b\"type\":\"polyline\",\"points\":[[1,2]]\x7d]"
    let document := "<path d=\"M1e999 0\"/>"
    (⟨7, 0⟩ ∈ (Placement.linework tess scanned).points ∧ (⟨7, 0⟩ : Point Float).isFinite = true) ∧
      (⟨1, 0⟩ ∈ (Placement.linework tess drawing).points ∧
        ((⟨1, 0⟩ : Point Float).isFinite = true ∨
          Placement.IsMovedByInsertions tess drawing ⟨1, 0⟩)) ∧
      (∃ work, Record.read tess records = .ok work ∧ ⟨1, 2⟩ ∈ work.points ∧
        ((⟨1, 2⟩ : Point Float).isFinite = true ∨ Tessellation.IsOnFiniteCircle ⟨1, 2⟩)) ∧
      (⟨1e999, 0⟩ ∈ (Svg.Document.linework document).points ∧
        Svg.Document.IsDrawnByOverflow document ⟨1e999, 0⟩) := by
  intro tess scanned drawing records document
  obtain ⟨hscanned, hdrawing, hrecords, hdocument⟩ := isFinite_or_overflow tess
  have hline : ⟨7, 0⟩ ∈ (Placement.linework tess scanned).points := by decide +kernel
  have hentity : ⟨1, 0⟩ ∈ (Placement.linework tess drawing).points := by decide +kernel
  have hread : (Record.read tess records).toOption.map Linework.points = some [⟨1, 2⟩] := by
    decide +kernel
  have hpath : ⟨1e999, 0⟩ ∈ (Svg.Document.linework document).points := by decide +kernel
  have hinfinite : (⟨1e999, 0⟩ : Point Float).isFinite = false := by decide +kernel
  refine ⟨⟨hline, hscanned _ _ hline⟩, ⟨hentity, hdrawing _ _ hentity⟩, ?_, hpath, ?_⟩
  · cases hwork : Record.read tess records with
    | error failure =>
      rw [hwork] at hread
      nomatch hread
    | ok work =>
      rw [hwork] at hread
      have hpoints : work.points = [⟨1, 2⟩] := Option.some.inj hread
      have hmem : ⟨1, 2⟩ ∈ work.points := by rw [hpoints]; exact List.mem_cons_self
      exact ⟨work, rfl, hmem, hrecords _ work hwork _ hmem⟩
  · exact (hdocument _ _ hpath).resolve_left (by rw [hinfinite]; decide)

/-- Path data overflows by a number of its own and by a relative sum of finite numbers. -/
theorem exists_infinite_point_of_pathData :
    (∃ p ∈ (Svg.Document.linework "<path d=\"M1e999 0\"/>").points, p.isFinite = false) ∧
      ∃ p ∈ (Svg.Document.linework "<path d=\"M1e308 0l1e308 0\"/>").points,
        p.isFinite = false := by
  decide +kernel

end Import

end Turnery
