import Turnery.Proofs.Curve.Steps
import Turnery.Proofs.Drawing.Levels

/-!
# Occurrences of entities

Blocks that insert one another make a drawing stand for a tree that may be infinite: an entity
occurs once for every chain of insertions that leads to it. `Reaches` says which occurrences there
are, without a bound and without an order. `leavesBelow` lists those that are drawn and have fewer
than a number of insertions above them, and `linework_eq_leaves` shows the linework of a drawing to
be the polylines of its leaves in the order of their addresses. Over a ring the map of a leaf can be
done without: its points are carried through the insertions one by one (`polyline_identity`).
-/

namespace Turnery.Placement

variable {α : Type}

/-- A place where an entity stands: the positions that lead to it in the lists of entities, from the
outermost on, and the insertions on the way with the blocks they insert. -/
structure Occurrence (α : Type) where
  address : List Nat
  chain : List (Insertion α × Block α)
  entity : Entity α

/-- The occurrence seen from outside an insertion of its block. -/
def Occurrence.under (i : Nat) (insertion : Insertion α) (block : Block α) (o : Occurrence α) :
    Occurrence α :=
  ⟨i :: o.address, (insertion, block) :: o.chain, o.entity⟩

/-- What occurs among some entities: each of them, and what occurs in a block that one of them
inserts. -/
inductive Reaches (drawing : Drawing α) : List (Entity α) → Occurrence α → Prop
  | here {entities : List (Entity α)} {i : Nat} {entity : Entity α}
      (h : entities[i]? = some entity) : Reaches drawing entities ⟨[i], [], entity⟩
  | inside {entities : List (Entity α)} {i : Nat} {insertion : Insertion α} {block : Block α}
      {inner : Occurrence α} (h : entities[i]? = some (.insert insertion))
      (hblock : drawing.block? insertion.block = some block)
      (hinner : Reaches drawing block.entities inner) :
      Reaches drawing entities (inner.under i insertion block)

theorem flatMap_zipIdx {β : Type} (entities : List α) (f : α → List β) :
    (entities.zipIdx.flatMap fun (entity, _) => f entity) = entities.flatMap f := by
  calc
    _ = (entities.zipIdx.map Prod.fst).flatMap f := (List.flatMap_map _ _ _).symm
    _ = entities.flatMap f := by rw [List.zipIdx_map_fst]

section Map

variable [Add α] [Mul α] [Neg α] [Zero α] [One α] [Scalar α]

/-- The map that a chain of insertions makes of the map outside it. -/
def chainMap (m : Affine α) (chain : List (Insertion α × Block α)) : Affine α :=
  chain.foldl (fun m (insertion, block) => m.comp (insertionMap insertion block.base)) m

end Map

variable [Add α] [Sub α] [Mul α] [Div α] [Neg α] [Zero α] [One α] [LT α] [LE α] [DecidableLT α]
  [DecidableLE α] [Scalar α] (tess : Tessellation) (drawing : Drawing α)

/-- The occurrences that a drawing shows: an entity that is drawn, under few enough insertions. -/
structure IsLeaf (o : Occurrence α) : Prop where
  reached : Reaches drawing drawing.entities o
  drawable : IsDrawable tess o.entity
  depth : o.chain.length ≤ maxDepth

/-- The leaves that an entity contributes at its position, given those of lists of entities further
in. -/
def leavesAt (deeper : List (Entity α) → List (Occurrence α)) (i : Nat) (entity : Entity α) :
    List (Occurrence α) :=
  match entity.insertion? with
  | none => if IsDrawable tess entity then [⟨[i], [], entity⟩] else []
  | some insertion =>
    match drawing.block? insertion.block with
    | none => []
    | some block => (deeper block.entities).map (Occurrence.under i insertion block)

/-- The leaves among some entities that have fewer insertions above them than the bound, in
depth-first order. -/
def leavesBelow : Nat → List (Entity α) → List (Occurrence α)
  | 0, _ => []
  | bound + 1, entities =>
    entities.zipIdx.flatMap fun (entity, i) => leavesAt tess drawing (leavesBelow bound) i entity

section Cases

variable {tess drawing} {deeper : List (Entity α) → List (Occurrence α)} {i : Nat}

theorem leavesAt_of_isDrawable {entity : Entity α} (h : IsDrawable tess entity) :
    leavesAt tess drawing deeper i entity = [⟨[i], [], entity⟩] := by
  rw [leavesAt, h.insertion?]
  exact if_pos h

theorem leavesAt_of_not_isDrawable {entity : Entity α} (hentity : entity.insertion? = none)
    (h : ¬IsDrawable tess entity) : leavesAt tess drawing deeper i entity = [] := by
  rw [leavesAt, hentity]
  exact if_neg h

theorem leavesAt_insert_of_block {insertion : Insertion α} {block : Block α}
    (h : drawing.block? insertion.block = some block) :
    leavesAt tess drawing deeper i (.insert insertion) =
      (deeper block.entities).map (Occurrence.under i insertion block) := by
  rw [leavesAt, Entity.insertion?]
  simp only [h]

theorem leavesAt_insert_of_missing {insertion : Insertion α}
    (h : drawing.block? insertion.block = none) :
    leavesAt tess drawing deeper i (.insert insertion) = [] := by
  rw [leavesAt, Entity.insertion?]
  simp only [h]

end Cases

theorem mem_leavesAt {deeper : List (Entity α) → List (Occurrence α)} {i : Nat} {entity : Entity α}
    {o : Occurrence α} :
    o ∈ leavesAt tess drawing deeper i entity ↔
      IsDrawable tess entity ∧ o = ⟨[i], [], entity⟩ ∨
        ∃ insertion block inner, entity = .insert insertion ∧
          drawing.block? insertion.block = some block ∧
          inner ∈ deeper block.entities ∧ o = inner.under i insertion block := by
  cases hentity : entity.insertion? with
  | none =>
    have hinsert : ∀ insertion, entity ≠ .insert insertion := by
      rintro insertion rfl
      cases hentity
    by_cases hdraw : IsDrawable tess entity
    · simp [leavesAt_of_isDrawable hdraw, hdraw, hinsert]
    · simp [leavesAt_of_not_isDrawable hentity hdraw, hdraw, hinsert]
  | some insertion =>
    obtain rfl := Entity.insertion?_eq_some_iff.1 hentity
    have hdraw : ¬IsDrawable tess (.insert insertion) := fun hdraw => nomatch hdraw.insertion?
    cases hblock : drawing.block? insertion.block with
    | none => simp [leavesAt_insert_of_missing hblock, hdraw, hblock]
    | some block => simp [leavesAt_insert_of_block hblock, hdraw, hblock, eq_comm]

theorem mem_leavesBelow {bound : Nat} {entities : List (Entity α)} {o : Occurrence α} :
    o ∈ leavesBelow tess drawing bound entities ↔
      Reaches drawing entities o ∧ IsDrawable tess o.entity ∧ o.chain.length < bound := by
  induction bound generalizing entities o with
  | zero => simp [leavesBelow]
  | succ bound ih =>
    rw [leavesBelow, List.mem_flatMap]
    constructor
    · rintro ⟨⟨entity, i⟩, hmem, ho⟩
      rw [List.mem_zipIdx_iff_getElem?] at hmem
      rcases (mem_leavesAt tess drawing).1 ho with ⟨hdraw, rfl⟩ | ⟨insertion, block, inner, rfl,
        hblock, hinner, rfl⟩
      · exact ⟨.here hmem, hdraw, Nat.succ_pos bound⟩
      · obtain ⟨hreaches, hdraw, hlength⟩ := ih.1 hinner
        exact ⟨.inside hmem hblock hreaches, hdraw, Nat.succ_lt_succ hlength⟩
    · rintro ⟨hreaches, hdraw, hlength⟩
      cases hreaches with
      | @here _ i entity h =>
        exact ⟨(entity, i), List.mem_zipIdx_iff_getElem?.2 h,
          (mem_leavesAt tess drawing).2 (.inl ⟨hdraw, rfl⟩)⟩
      | @inside _ i insertion block inner h hblock hinner =>
        have hmem := ih.2 ⟨hinner, hdraw, Nat.lt_of_succ_lt_succ hlength⟩
        exact ⟨(.insert insertion, i), List.mem_zipIdx_iff_getElem?.2 h,
          (mem_leavesAt tess drawing).2 (.inr ⟨insertion, block, inner, rfl, hblock, hmem, rfl⟩)⟩

/-- The leaves of a drawing are those with few enough insertions above them. -/
theorem mem_leaves {o : Occurrence α} :
    o ∈ leavesBelow tess drawing (maxDepth + 1) drawing.entities ↔ IsLeaf tess drawing o := by
  rw [mem_leavesBelow, Nat.lt_succ_iff]
  exact ⟨fun ⟨h, hdraw, hdepth⟩ => ⟨h, hdraw, hdepth⟩, fun h => ⟨h.reached, h.drawable, h.depth⟩⟩

theorem exists_address_of_mem_leavesAt {deeper : List (Entity α) → List (Occurrence α)} {i : Nat}
    {entity : Entity α} {o : Occurrence α} (h : o ∈ leavesAt tess drawing deeper i entity) :
    ∃ rest, o.address = i :: rest := by
  rcases (mem_leavesAt tess drawing).1 h with ⟨-, rfl⟩ | ⟨-, -, inner, -, -, -, rfl⟩
  · exact ⟨[], rfl⟩
  · exact ⟨inner.address, rfl⟩

theorem pairwise_leavesAt {deeper : List (Entity α) → List (Occurrence α)}
    (h : ∀ entities, (deeper entities).Pairwise fun o p => o.address < p.address) (i : Nat)
    (entity : Entity α) :
    (leavesAt tess drawing deeper i entity).Pairwise fun o p => o.address < p.address := by
  unfold leavesAt
  split
  · split
    · exact List.pairwise_singleton _ _
    · exact .nil
  · split
    · exact .nil
    · rw [List.pairwise_map]
      exact (h _).imp fun hlt => List.cons_lt_cons_iff.2 (.inr ⟨rfl, hlt⟩)

theorem pairwise_leavesBelow (bound : Nat) (entities : List (Entity α)) :
    (leavesBelow tess drawing bound entities).Pairwise fun o p => o.address < p.address := by
  induction bound generalizing entities with
  | zero => exact .nil
  | succ bound ih =>
    rw [leavesBelow, List.pairwise_flatMap]
    refine ⟨fun (entity, i) _ => pairwise_leavesAt tess drawing ih i entity, ?_⟩
    have hpositions : entities.zipIdx.Pairwise fun a b => a.2 < b.2 := by
      rw [← List.pairwise_map, List.zipIdx_map_snd]
      exact List.pairwise_lt_range'
    refine hpositions.imp fun hlt o ho p hp => ?_
    obtain ⟨rest, hrest⟩ := exists_address_of_mem_leavesAt tess drawing ho
    obtain ⟨rest', hrest'⟩ := exists_address_of_mem_leavesAt tess drawing hp
    rw [hrest, hrest']
    exact List.cons_lt_cons_iff.2 (.inl hlt)

variable {tess drawing} in
/-- A block that holds an entity and inserts itself draws the entity once for each insertion that
there is room for. -/
theorem leavesBelow_of_loop {insertion : Insertion α} {block : Block α} {entity : Entity α}
    (hblock : drawing.block? insertion.block = some block)
    (hentities : block.entities = [entity, .insert insertion]) (hdraw : IsDrawable tess entity)
    (bound : Nat) :
    leavesBelow tess drawing bound block.entities = (List.range bound).map fun depth =>
      ⟨List.replicate depth 1 ++ [0], List.replicate depth (insertion, block), entity⟩ := by
  induction bound with
  | zero => rfl
  | succ bound ih =>
    calc
      leavesBelow tess drawing (bound + 1) block.entities =
          leavesAt tess drawing (leavesBelow tess drawing bound) 0 entity ++
            (leavesAt tess drawing (leavesBelow tess drawing bound) 1 (.insert insertion) ++
                []) := by
        rw [hentities]
        rfl
      _ = _ := by
        rw [leavesAt_of_isDrawable hdraw, leavesAt_insert_of_block hblock, ih,
          List.range_succ_eq_map, List.map_cons, List.map_map, List.map_map, List.append_nil]
        rfl

/-- Leaves in the order of their addresses are told by what they are. -/
theorem eq_leavesBelow {leaves : List (Occurrence α)}
    (hmem : ∀ o, o ∈ leaves ↔ IsLeaf tess drawing o)
    (hsorted : leaves.Pairwise fun o p => o.address < p.address) :
    leaves = leavesBelow tess drawing (maxDepth + 1) drawing.entities := by
  have hbelow := pairwise_leavesBelow tess drawing (maxDepth + 1) drawing.entities
  have hirrefl : ∀ {o p : Occurrence α}, o.address < p.address → o ≠ p := by
    rintro o _ hlt rfl
    exact lt_irrefl _ hlt
  have hperm := (List.perm_ext_iff_of_nodup (hsorted.imp hirrefl) (hbelow.imp hirrefl)).2 fun o =>
    (hmem o).trans (mem_leaves tess drawing).symm
  exact hperm.eq_of_pairwise (fun o p _ _ hlt hgt => absurd hgt (lt_asymm hlt)) hsorted hbelow

variable [BEq α]

/-- The polyline of an occurrence under a map: every point of its shape is mapped by the map of its
chain, unless that is the identity, which leaves the shape as it is. -/
def Occurrence.polyline (m : Affine α) (o : Occurrence α) : Polyline α :=
  if (chainMap m o.chain).isIdentity then shape tess o.entity
  else ⟨(shape tess o.entity).points.map (chainMap m o.chain).apply⟩

/-- The polyline seen from outside an insertion. -/
theorem polyline_under (m : Affine α) (i : Nat) (insertion : Insertion α) (block : Block α)
    (o : Occurrence α) :
    (o.under i insertion block).polyline tess m =
      o.polyline tess (m.comp (insertionMap insertion block.base)) :=
  rfl

/-- What insertions draw when the blocks they insert draw the leaves given for them. -/
def InsertsDraw (room : Nat) (m : Affine α) (deeper : List (Entity α) → List (Occurrence α)) :
    Prop :=
  ∀ insertion, drawn (place tess drawing room m (.insert insertion)) =
    match drawing.block? insertion.block with
    | none => []
    | some block =>
      (deeper block.entities).map
        (Occurrence.polyline tess (m.comp (insertionMap insertion block.base)))

variable {tess drawing}

theorem InsertsDraw.drawn_place {deeper : List (Entity α) → List (Occurrence α)} {room : Nat}
    {m : Affine α} (h : InsertsDraw tess drawing room m deeper) (i : Nat) (entity : Entity α) :
    drawn (place tess drawing room m entity) =
      (leavesAt tess drawing deeper i entity).map (Occurrence.polyline tess m) := by
  cases hentity : entity.insertion? with
  | none =>
    rw [drawn_place_of_insertion?_eq_none tess drawing hentity]
    by_cases hdraw : IsDrawable tess entity
    · rw [leavesAt_of_isDrawable hdraw, if_pos hdraw]
      rfl
    · rw [leavesAt_of_not_isDrawable hentity hdraw, if_neg hdraw, List.map_nil]
  | some insertion =>
    obtain rfl := Entity.insertion?_eq_some_iff.1 hentity
    rw [h]
    cases hblock : drawing.block? insertion.block with
    | none => rw [leavesAt_insert_of_missing hblock, List.map_nil]
    | some block =>
      rw [leavesAt_insert_of_block hblock, List.map_map]
      exact List.map_congr_left fun o _ => (polyline_under tess m i insertion block o).symm

theorem InsertsDraw.flatMap_drawn_place {deeper : List (Entity α) → List (Occurrence α)}
    {room : Nat} {m : Affine α} (h : InsertsDraw tess drawing room m deeper)
    (entities : List (Entity α)) :
    (entities.flatMap fun entity => drawn (place tess drawing room m entity)) =
      (entities.zipIdx.flatMap fun (entity, i) => leavesAt tess drawing deeper i entity).map
        (Occurrence.polyline tess m) := by
  rw [List.map_flatMap, ← flatMap_zipIdx]
  congr 1
  funext (entity, i)
  exact h.drawn_place i entity

variable (tess drawing)

/-- Placing entities draws their leaves, as deep as there is room. -/
theorem flatMap_drawn_place (room : Nat) (m : Affine α) (entities : List (Entity α)) :
    (entities.flatMap fun entity => drawn (place tess drawing room m entity)) =
      (leavesBelow tess drawing (room + 1) entities).map (Occurrence.polyline tess m) := by
  induction room generalizing m entities with
  | zero =>
    have hinsert : InsertsDraw tess drawing 0 m (leavesBelow tess drawing 0) := by
      intro insertion
      rw [place_zero_insert, drawn_error]
      cases drawing.block? insertion.block <;> rfl
    exact hinsert.flatMap_drawn_place entities
  | succ room ih =>
    have hinsert : InsertsDraw tess drawing (room + 1) m (leavesBelow tess drawing (room + 1)) := by
      intro insertion
      rw [place_succ_insert]
      cases drawing.block? insertion.block with
      | none => rfl
      | some block => exact ih _ _
    exact hinsert.flatMap_drawn_place entities

/-- The linework of a drawing consists of the polylines of its leaves, each leaf once and in the
order of addresses, less the polylines without points. -/
theorem linework_eq_leaves :
    ∃ leaves : List (Occurrence α),
      (∀ o, o ∈ leaves ↔ IsLeaf tess drawing o) ∧
        leaves.Pairwise (fun o p => o.address < p.address) ∧
        (linework tess drawing).polylines =
          (leaves.map (Occurrence.polyline tess .identity)).filter fun line => !line.isEmpty := by
  refine ⟨leavesBelow tess drawing (maxDepth + 1) drawing.entities, ?_, ?_, ?_⟩
  · exact fun o => mem_leaves tess drawing
  · exact pairwise_leavesBelow tess drawing _ _
  · rw [polylines_linework, flatMap_drawn_place]

section Ring

variable {α : Type} [CommRing α] [Scalar α]

/-- Where a chain of insertions takes a point, the innermost first. -/
def carriedBy (chain : List (Insertion α × Block α)) (p : Point α) : Point α :=
  chain.foldr (fun (insertion, block) p => insertion.carry block.base p) p

/-- The map of a chain carries points through its insertions. -/
theorem apply_chainMap (m : Affine α) (chain : List (Insertion α × Block α)) (p : Point α) :
    (chainMap m chain).apply p = m.apply (carriedBy chain p) := by
  induction chain generalizing m with
  | nil => rfl
  | cons link chain ih =>
    have hstep : chainMap m (link :: chain) =
      chainMap (m.comp (insertionMap link.1 link.2.base)) chain := rfl
    rw [hstep, ih, Affine.apply_comp m (isAffine_insertionMap _ _), apply_insertionMap]
    rfl

variable [Div α] [LT α] [LE α] [DecidableLT α] [DecidableLE α] [DecidableEq α]

/-- An occurrence is drawn by carrying the points of its shape. -/
theorem polyline_identity (tess : Tessellation) (o : Occurrence α) :
    o.polyline tess .identity = ⟨(shape tess o.entity).points.map (carriedBy o.chain)⟩ := by
  have hmoved : o.polyline tess .identity =
    (shape tess o.entity).map (chainMap .identity o.chain) := moved_eq_map _ _
  have happly : (chainMap .identity o.chain).apply = carriedBy o.chain := by
    funext p
    rw [apply_chainMap, Affine.apply_identity]
  rw [hmoved, Polyline.map, happly]

end Ring

/-- A block that is turned and stretched, from which a circle without extent and a missing block are
left out, and one that inserts itself a unit further on until sixteen insertions stand one inside
the other. -/
theorem linework_eq_leaves_looped :
    let turned : Insertion ℝ := ⟨"turned", ⟨5, 1⟩, 2, 3, 90⟩
    let looped : Insertion ℝ := ⟨"looped", ⟨1, 0⟩, 1, 1, 0⟩
    let missing : Insertion ℝ := ⟨"missing", ⟨0, 0⟩, 1, 1, 0⟩
    let bar : Block ℝ := ⟨⟨1, 0⟩, [.circle ⟨0, 0⟩ 0, .insert missing, .line ⟨1, 0⟩ ⟨2, 1⟩]⟩
    let post : Block ℝ := ⟨⟨0, 0⟩, [.line ⟨0, 0⟩ ⟨0, 1⟩, .insert looped]⟩
    let entities : List (Entity ℝ) := [.insert turned, .line ⟨0, 0⟩ ⟨3, 4⟩, .insert looped]
    let drawing : Drawing ℝ := ⟨entities, [("turned", bar), ("looped", post)]⟩
    (linework (.ofNat 4) drawing).polylines =
      ⟨[⟨5, 1⟩, ⟨2, 3⟩]⟩ :: ⟨[⟨0, 0⟩, ⟨3, 4⟩]⟩ ::
        (List.range 16).map fun depth => ⟨[⟨depth + 1, 0⟩, ⟨depth + 1, 1⟩]⟩ := by
  intro turned looped missing bar post entities drawing
  have hline : ∀ p q : Point ℝ, IsDrawable (.ofNat 4) (.line p q) := fun _ _ => ⟨rfl, trivial, rfl⟩
  have hcircle : ¬IsDrawable (α := ℝ) (.ofNat 4) (.circle ⟨0, 0⟩ 0) :=
    fun h => lt_irrefl _ h.passesCheck.2
  have hturned : drawing.block? turned.block = some bar := rfl
  have hlooped : drawing.block? looped.block = some post := rfl
  have hbar : leavesBelow (.ofNat 4) drawing maxDepth bar.entities =
      [⟨[2], [], .line ⟨1, 0⟩ ⟨2, 1⟩⟩] := by
    calc
      _ = leavesAt _ drawing _ 0 (.circle ⟨0, 0⟩ 0) ++ (leavesAt _ drawing _ 1 (.insert missing) ++
            (leavesAt _ drawing _ 2 (.line ⟨1, 0⟩ ⟨2, 1⟩) ++ [])) := rfl
      _ = _ := by
        rw [leavesAt_of_not_isDrawable rfl hcircle, leavesAt_insert_of_missing rfl,
          leavesAt_of_isDrawable (hline _ _)]
        rfl
  obtain ⟨leaves, hmem, hsorted, hlines⟩ := linework_eq_leaves (.ofNat 4) drawing
  have hleaves : leaves =
      ⟨[0, 2], [(turned, bar)], .line ⟨1, 0⟩ ⟨2, 1⟩⟩ :: ⟨[1], [], .line ⟨0, 0⟩ ⟨3, 4⟩⟩ ::
        (List.range maxDepth).map fun depth =>
          ⟨2 :: (List.replicate depth 1 ++ [0]), List.replicate (depth + 1) (looped, post),
              .line ⟨0, 0⟩ ⟨0, 1⟩⟩ := by
    calc
      leaves = leavesAt _ drawing (leavesBelow _ drawing maxDepth) 0 (.insert turned) ++
          (leavesAt _ drawing (leavesBelow _ drawing maxDepth) 1 (.line ⟨0, 0⟩ ⟨3, 4⟩) ++
            (leavesAt _ drawing (leavesBelow _ drawing maxDepth) 2 (.insert looped) ++ [])) :=
        eq_leavesBelow _ _ hmem hsorted
      _ = _ := by
        rw [leavesAt_insert_of_block hturned, hbar, leavesAt_of_isDrawable (hline _ _),
          leavesAt_insert_of_block hlooped, leavesBelow_of_loop hlooped rfl (hline _ _),
          List.map_map, List.append_nil]
        rfl
  have hturn : ∀ p, carriedBy [(turned, bar)] p = ⟨5 - 3 * p.y, 2 * p.x - 1⟩ := by
    intro p
    have hright : (90 : ℝ) * (Real.pi / 180) = Real.pi / 2 := by ring
    simp only [carriedBy, List.foldr_cons, List.foldr_nil, Insertion.carry, turned, bar,
      Point.stretch, Point.rotate, Point.translate, Scalar.cos, Scalar.sin, Scalar.radians, hright,
      Real.cos_pi_div_two, Real.sin_pi_div_two, Point.mk.injEq]
    constructor <;> ring
  have hloop : ∀ (depth : ℕ) (y : ℝ), carriedBy (List.replicate depth (looped, post)) ⟨0, y⟩ =
      ⟨depth, y⟩ := by
    intro depth y
    induction depth with
    | zero => simp [carriedBy]
    | succ depth ih =>
      rw [List.replicate_succ, carriedBy, List.foldr_cons, ← carriedBy, ih]
      simp [looped, post, Insertion.carry, Point.stretch, Point.rotate, Point.translate, Scalar.cos,
        Scalar.sin, Scalar.radians, add_comm]
  rw [hlines, hleaves]
  simp only [List.map_cons, List.map_map, Function.comp_def, polyline_identity, shape, hturn, hloop]
  rw [List.filter_eq_self.2 (by simp [Polyline.isEmpty])]
  norm_num [carriedBy, maxDepth]

end Turnery.Placement
