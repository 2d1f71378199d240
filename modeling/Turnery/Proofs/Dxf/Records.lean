import Turnery.Dxf.Scan

/-!
# Reading by records

The scan walks over single groups. A reader of the format thinks in records: a group of code 0
starts one, and the groups up to the next of code 0 are its body. `entitiesOf` reads a list of
records by that rule, with a flag for the blocks that only the ends of sections change, and
`entities_eq_entitiesOf` shows the scan to agree with it on every list of groups. What stands inside
the blocks and what stands in the body of one entity then act where they should and nowhere else.
-/

namespace Turnery.Dxf.Scan

/-- A record: the value of the group that starts it, and the groups up to the next that starts
one. -/
structure RawRecord where
  name : String
  body : List Group
  deriving DecidableEq

/-- The records of a list of groups; the groups before the first one are left out. -/
def records : List Group → List RawRecord
  | [] => []
  | g :: rest => if g.code = 0 then ⟨g.value, body rest⟩ :: records rest else records rest

def RawRecord.groups (r : RawRecord) : List Group :=
  ⟨0, r.name⟩ :: r.body

def RawRecord.isVertex (r : RawRecord) : Bool :=
  r.name == "VERTEX"

/-- The points of the vertices that stand at the front, those with an unreadable number left out. -/
def leadingPoints (rs : List RawRecord) : List (Point Float) :=
  (rs.takeWhile RawRecord.isVertex).filterMap fun r => point? r.body 10 20

/-- The entity of a record, if it is one of a recognised kind and can be read. Only an old polyline
takes something from the records behind it. -/
def RawRecord.entity? (r : RawRecord) (following : List RawRecord) : Option (Entity Float) :=
  (Kind.ofName? r.name).bind fun kind =>
    kind.entity? r.body (if kind = .polyline then leadingPoints following else [])

/-- Whether what follows the record stands inside the blocks. -/
def RawRecord.leavesInBlocks (inBlocks : Bool) (r : RawRecord) : Bool :=
  if r.name = "SECTION" then namesBlocks r.body
  else if r.name = "ENDSEC" then false
  else inBlocks

/-- The entities of records, in order; inside the blocks there are none. -/
def entitiesOf (inBlocks : Bool) : List RawRecord → List (Entity Float)
  | [] => []
  | r :: rest =>
    (if inBlocks then none else r.entity? rest).toList ++
      entitiesOf (r.leavesInBlocks inBlocks) rest

theorem inner_iff {g : Group} : Inner g = true ↔ g.code ≠ 0 := by
  simp [Inner]

theorem inner_eq_false_iff {g : Group} : Inner g = false ↔ g.code = 0 := by
  simp [Inner]

theorem records_cons_of_inner {g : Group} (h : Inner g = true) (rest : List Group) :
    records (g :: rest) = records rest := by
  rw [records, if_neg (inner_iff.1 h)]

theorem records_cons_of_head {g : Group} (h : Inner g = false) (rest : List Group) :
    records (g :: rest) = ⟨g.value, body rest⟩ :: records rest := by
  rw [records, if_pos (inner_eq_false_iff.1 h)]

theorem afterBody_cons_of_inner {g : Group} (h : Inner g = true) (rest : List Group) :
    afterBody (g :: rest) = afterBody rest :=
  List.dropWhile_cons_of_pos h

theorem afterBody_cons_of_head {g : Group} (h : Inner g = false) (rest : List Group) :
    afterBody (g :: rest) = g :: rest := by
  rw [afterBody, List.dropWhile_cons_of_neg (by simp [h])]

/-- Cutting loses nothing but what stands before the first record. -/
theorem flatMap_groups_records (gs : List Group) :
    (records gs).flatMap RawRecord.groups = afterBody gs := by
  induction gs with
  | nil => rfl
  | cons g rest ih =>
    cases h : Inner g with
    | true => rw [records_cons_of_inner h, afterBody_cons_of_inner h, ih]
    | false =>
      have hg : g = ⟨0, g.value⟩ := by rw [← inner_eq_false_iff.1 h]
      rw [records_cons_of_head h, afterBody_cons_of_head h, List.flatMap_cons, ih, RawRecord.groups,
        List.cons_append, body, afterBody, List.takeWhile_append_dropWhile, ← hg]

theorem code_ne_zero_of_mem_body {gs : List Group} {g : Group} (h : g ∈ body gs) : g.code ≠ 0 :=
  inner_iff.1 (List.all_eq_true.1 List.all_takeWhile g h)

theorem code_ne_zero_of_mem_records {gs : List Group} {r : RawRecord} (hr : r ∈ records gs)
    {g : Group} (hg : g ∈ r.body) : g.code ≠ 0 := by
  induction gs with
  | nil => cases hr
  | cons head rest ih =>
    cases h : Inner head with
    | true =>
      rw [records_cons_of_inner h] at hr
      exact ih hr
    | false =>
      rw [records_cons_of_head h] at hr
      rcases List.mem_cons.1 hr with rfl | hr
      · exact code_ne_zero_of_mem_body hg
      · exact ih hr

/-- A body holds no record. -/
theorem records_afterBody (gs : List Group) : records (afterBody gs) = records gs := by
  induction gs with
  | nil => rfl
  | cons g rest ih =>
    cases h : Inner g with
    | true => rw [afterBody_cons_of_inner h, records_cons_of_inner h, ih]
    | false => rw [afterBody_cons_of_head h]

/-- Whether a section is one of blocks shows in its body. -/
theorem namesBlocks_body (gs : List Group) : namesBlocks (body gs) = namesBlocks gs := by
  cases gs with
  | nil => rfl
  | cons g rest =>
    cases h : Inner g with
    | true => rw [body, List.takeWhile_cons_of_pos h]; rfl
    | false =>
      rw [body, List.takeWhile_cons_of_neg (by simp [h]), namesBlocks, namesBlocks,
        inner_eq_false_iff.1 h]
      rfl

theorem takeVertices_nil : takeVertices [] = ([], []) := by
  rw [takeVertices]

theorem takeVertices_cons_of_vertex {g : Group} (h : (g.code == 0 && g.value == "VERTEX") = true)
    (rest : List Group) :
    takeVertices (g :: rest) =
      ((point? (body rest) 10 20).toList ++ (takeVertices (afterBody rest)).1,
        (takeVertices (afterBody rest)).2) := by
  rw [takeVertices, if_pos h]

theorem takeVertices_cons_of_not_vertex {g : Group}
    (h : (g.code == 0 && g.value == "VERTEX") = false) (rest : List Group) :
    takeVertices (g :: rest) = ([], g :: rest) := by
  rw [takeVertices, if_neg (by simp [h])]

theorem leadingPoints_cons_of_isVertex {r : RawRecord} (h : r.isVertex = true)
    (rest : List RawRecord) :
    leadingPoints (r :: rest) = (point? r.body 10 20).toList ++ leadingPoints rest := by
  rw [leadingPoints, List.takeWhile_cons_of_pos h, List.filterMap_cons]
  cases point? r.body 10 20 <;> rfl

theorem leadingPoints_cons_of_not_isVertex {r : RawRecord} (h : r.isVertex = false)
    (rest : List RawRecord) :
    leadingPoints (r :: rest) = [] := by
  rw [leadingPoints, List.takeWhile_cons_of_neg (by simp [h])]
  rfl

/-- Taking the vertices behind a body takes the points of the vertex records that come next, and of
the records only vertices. -/
theorem takeVertices_afterBody (gs : List Group) :
    (takeVertices (afterBody gs)).1 = leadingPoints (records gs) ∧
      ∃ vertices, (∀ r ∈ vertices, r.isVertex = true) ∧
        records gs = vertices ++ records (takeVertices (afterBody gs)).2 := by
  induction gs with
  | nil =>
    rw [show afterBody [] = [] from rfl, takeVertices_nil]
    exact ⟨rfl, [], by simp, rfl⟩
  | cons g rest ih =>
    cases hinner : Inner g with
    | true =>
      rw [afterBody_cons_of_inner hinner, records_cons_of_inner hinner]
      exact ih
    | false =>
      rw [afterBody_cons_of_head hinner, records_cons_of_head hinner]
      have hcode : g.code = 0 := inner_eq_false_iff.1 hinner
      cases hvertex : RawRecord.isVertex ⟨g.value, body rest⟩ with
      | true =>
        obtain ⟨hpoints, vertices, hvertices, hrecords⟩ := ih
        have hboth : (g.code == 0 && g.value == "VERTEX") = true := by rw [hcode]; exact hvertex
        rw [takeVertices_cons_of_vertex hboth]
        refine ⟨?_, ⟨g.value, body rest⟩ :: vertices, ?_, ?_⟩
        · rw [leadingPoints_cons_of_isVertex hvertex, hpoints]
        · intro r hr
          rcases List.mem_cons.1 hr with rfl | hr
          · exact hvertex
          · exact hvertices r hr
        · exact congrArg (_ :: ·) hrecords
      | false =>
        have hboth : (g.code == 0 && g.value == "VERTEX") = false := by rw [hcode]; exact hvertex
        rw [takeVertices_cons_of_not_vertex hboth]
        refine ⟨(leadingPoints_cons_of_not_isVertex hvertex _).symm, [], by simp, ?_⟩
        exact (records_cons_of_head hinner rest).symm

theorem RawRecord.entity?_of_ofName?_eq_none {r : RawRecord} (h : Kind.ofName? r.name = none)
    (following : List RawRecord) : r.entity? following = none := by
  rw [entity?, h, Option.bind_none]

/-- A record that gives no entity and leaves the flag as it is might as well not be there, if no
polyline stands before it. -/
theorem entitiesOf_cons_of_silent (inBlocks : Bool) {r : RawRecord} (rest : List RawRecord)
    (hentity : (if inBlocks then none else r.entity? rest) = none)
    (hflag : r.leavesInBlocks inBlocks = inBlocks) :
    entitiesOf inBlocks (r :: rest) = entitiesOf inBlocks rest := by
  rw [entitiesOf, hentity, hflag]
  rfl

theorem RawRecord.leavesInBlocks_of_ne {r : RawRecord} (hsection : r.name ≠ "SECTION")
    (hend : r.name ≠ "ENDSEC") (inBlocks : Bool) : r.leavesInBlocks inBlocks = inBlocks := by
  rw [leavesInBlocks, if_neg hsection, if_neg hend]

theorem entitiesOf_vertices_append (inBlocks : Bool) {vertices : List RawRecord}
    (h : ∀ r ∈ vertices, r.isVertex = true) (rest : List RawRecord) :
    entitiesOf inBlocks (vertices ++ rest) = entitiesOf inBlocks rest := by
  induction vertices with
  | nil => rfl
  | cons r vertices ih =>
    have hname : r.name = "VERTEX" := beq_iff_eq.1 (h r List.mem_cons_self)
    rw [List.cons_append, entitiesOf_cons_of_silent, ih fun r hr => h r (List.mem_cons_of_mem _ hr)]
    · rw [RawRecord.entity?_of_ofName?_eq_none (by rw [hname]; rfl), ite_self]
    · exact RawRecord.leavesInBlocks_of_ne (by simp [hname]) (by simp [hname]) inBlocks

/-- A group that starts neither a section nor the end of one adds the entity of its record. -/
theorem entitiesOf_records_cons {g : Group} (hcode : ¬(g.code != 0) = true)
    (hsection : ¬(g.value == "SECTION") = true) (hend : ¬(g.value == "ENDSEC") = true)
    (inBlocks : Bool) (rest : List Group) :
    entitiesOf inBlocks (records (g :: rest)) =
      (if inBlocks then none else RawRecord.entity? ⟨g.value, body rest⟩ (records rest)).toList ++
        entitiesOf inBlocks (records rest) := by
  have hinner : Inner g = false := Bool.eq_false_iff.2 hcode
  rw [records_cons_of_head hinner, entitiesOf, RawRecord.leavesInBlocks_of_ne]
  · simpa using hsection
  · simpa using hend

/-- The scan reads the records, wherever it starts. -/
theorem entitiesFrom_eq_entitiesOf (inBlocks : Bool) (gs : List Group) :
    entitiesFrom inBlocks gs = entitiesOf inBlocks (records gs) := by
  -- The cases are the branches of the scan; the induction is over what is left behind the groups it
  -- has taken.
  fun_induction entitiesFrom inBlocks gs with
  | case1 => rfl
  | case2 inBlocks g rest hcode ih => rw [ih, records_cons_of_inner hcode]
  | case3 inBlocks g rest hcode hsection ih =>
    have hname : g.value = "SECTION" := beq_iff_eq.1 hsection
    rw [ih, records_cons_of_head (Bool.eq_false_iff.2 hcode), entitiesOf,
      RawRecord.entity?_of_ofName?_eq_none (by rw [hname]; rfl), ite_self, RawRecord.leavesInBlocks,
      if_pos hname,
      namesBlocks_body]
    rfl
  | case4 inBlocks g rest hcode hsection hend ih =>
    have hname : g.value = "ENDSEC" := beq_iff_eq.1 hend
    rw [ih, records_cons_of_head (Bool.eq_false_iff.2 hcode), entitiesOf,
      RawRecord.entity?_of_ofName?_eq_none (by rw [hname]; rfl), ite_self, RawRecord.leavesInBlocks,
      if_neg (by simp [hname]), if_pos hname]
    rfl
  | case5 inBlocks g rest hcode hsection hend hkind ih =>
    rw [ih, records_afterBody, entitiesOf_records_cons hcode hsection hend]
    have hnone : (if inBlocks then none else RawRecord.entity? ⟨g.value, body rest⟩
        (records rest)) = none := by
      cases inBlocks with
      | true => rfl
      | false =>
        have hname : Kind.ofName? (RawRecord.mk g.value (body rest)).name = none := hkind
        exact RawRecord.entity?_of_ofName?_eq_none hname _
    rw [hnone]
    rfl
  | case6 inBlocks g rest hcode hsection hend hkind taken ih =>
    obtain ⟨hpoints, vertices, hvertices, hrecords⟩ := takeVertices_afterBody rest
    cases inBlocks with
    | true => cases hkind
    | false =>
      have hentity : RawRecord.entity? ⟨g.value, body rest⟩ (records rest) =
          Kind.entity? (body rest) taken.1 .polyline := by
        have hname : Kind.ofName? g.value = some .polyline := hkind
        rw [RawRecord.entity?, hname, Option.bind_some, if_pos rfl, ← hpoints]
      rw [ih, entitiesOf_records_cons hcode hsection hend, if_neg Bool.false_ne_true, hentity,
        hrecords, entitiesOf_vertices_append false hvertices]
  | case7 inBlocks g rest hcode hsection hend kind hne hkind ih =>
    cases inBlocks with
    | true => cases hkind
    | false =>
      have hentity : RawRecord.entity? ⟨g.value, body rest⟩ (records rest) =
          kind.entity? (body rest) [] := by
        have hname : Kind.ofName? g.value = some kind := hkind
        rw [RawRecord.entity?, hname, Option.bind_some, if_neg hne]
      rw [ih, records_afterBody, entitiesOf_records_cons hcode hsection hend,
        if_neg Bool.false_ne_true, hentity]

/-- A group that starts a record ends the records before it. -/
theorem records_append_cons_of_head {g : Group} (h : Inner g = false) (front rest : List Group) :
    records (front ++ g :: rest) = records front ++ records (g :: rest) := by
  induction front with
  | nil => rfl
  | cons first front ih =>
    rw [List.cons_append]
    cases hfirst : Inner first with
    | true => rw [records_cons_of_inner hfirst, records_cons_of_inner hfirst, ih]
    | false =>
      have hbody : body (front ++ g :: rest) = body front := by
        rw [body, body, List.takeWhile_append, List.takeWhile_cons_of_neg (by simp [h]),
          List.append_nil]
        split
        · rename_i hlength
          exact ((List.takeWhile_prefix _).eq_of_length hlength).symm
        · rfl
      rw [records_cons_of_head hfirst, records_cons_of_head hfirst, ih, hbody, List.cons_append]

def flagAfter (inBlocks : Bool) (rs : List RawRecord) : Bool :=
  rs.foldl RawRecord.leavesInBlocks inBlocks

theorem leadingPoints_append_of_not_isVertex {r : RawRecord} (h : r.isVertex = false)
    (front rest : List RawRecord) :
    leadingPoints (front ++ r :: rest) = leadingPoints front := by
  induction front with
  | nil => exact leadingPoints_cons_of_not_isVertex h rest
  | cons first front ih =>
    rw [List.cons_append]
    cases hfirst : first.isVertex with
    | true => rw [leadingPoints_cons_of_isVertex hfirst, leadingPoints_cons_of_isVertex hfirst, ih]
    | false =>
      rw [leadingPoints_cons_of_not_isVertex hfirst, leadingPoints_cons_of_not_isVertex hfirst]

/-- Records from one on that is no vertex leave the entities before it as they are. -/
theorem entitiesOf_append_of_not_isVertex (inBlocks : Bool) {r : RawRecord} (h : r.isVertex = false)
    (front rest : List RawRecord) :
    entitiesOf inBlocks (front ++ r :: rest) =
      entitiesOf inBlocks front ++ entitiesOf (flagAfter inBlocks front) (r :: rest) := by
  induction front generalizing inBlocks with
  | nil => rfl
  | cons first front ih =>
    have hentity : first.entity? (front ++ r :: rest) = first.entity? front := by
      rw [RawRecord.entity?, leadingPoints_append_of_not_isVertex h]
      rfl
    rw [List.cons_append, entitiesOf, entitiesOf, hentity, ih, List.append_assoc]
    rfl

theorem entities_append_cons_of_head {g : Group} (hcode : g.code = 0) (hname : g.value ≠ "VERTEX")
    (front rest : List Group) :
    entities (front ++ g :: rest) =
      entities front ++ entitiesOf (flagAfter false (records front)) (records (g :: rest)) := by
  have hinner : Inner g = false := inner_eq_false_iff.2 hcode
  rw [entities, entities, entitiesFrom_eq_entitiesOf, entitiesFrom_eq_entitiesOf,
    records_append_cons_of_head hinner, records_cons_of_head hinner]
  exact entitiesOf_append_of_not_isVertex false (beq_eq_false_iff_ne.2 hname) _ _

/-- Groups that do not end the blocks they stand in add nothing. -/
theorem entitiesOf_true_records_append {inside : List Group}
    (h : ∀ g ∈ inside, g.code = 0 → g.value ≠ "SECTION" ∧ g.value ≠ "ENDSEC") (back : List Group) :
    entitiesOf true (records (inside ++ back)) = entitiesOf true (records back) := by
  induction inside with
  | nil => rfl
  | cons g inside ih =>
    have hrest := ih fun g hg => h g (List.mem_cons_of_mem _ hg)
    rw [List.cons_append]
    cases hinner : Inner g with
    | true => rw [records_cons_of_inner hinner, hrest]
    | false =>
      obtain ⟨hsection, hend⟩ := h g List.mem_cons_self (inner_eq_false_iff.1 hinner)
      rw [records_cons_of_head hinner, entitiesOf_cons_of_silent true _ rfl, hrest]
      exact RawRecord.leavesInBlocks_of_ne hsection hend true

theorem entitiesOf_blocks (inBlocks : Bool) (rest : List Group) :
    entitiesOf inBlocks (records (⟨0, "SECTION"⟩ :: ⟨2, "BLOCKS"⟩ :: rest)) =
      entitiesOf true (records rest) := by
  rw [records_cons_of_head rfl, records_cons_of_inner rfl, entitiesOf,
    RawRecord.entity?_of_ofName?_eq_none rfl, ite_self]
  rfl

theorem Kind.name_ne_of_ofName? {name : String} {kind : Kind} (h : Kind.ofName? name = some kind) :
    name ≠ "VERTEX" ∧ name ≠ "SECTION" ∧ name ≠ "ENDSEC" := by
  refine ⟨?_, ?_, ?_⟩ <;> rintro rfl <;> cases h

theorem body_append {gs back : List Group} (h : ∀ g ∈ gs, g.code ≠ 0)
    (hback : afterBody back = back) :
    body (gs ++ back) = gs := by
  have hinner : ∀ g ∈ gs, Inner g = true := fun g hg => inner_iff.2 (h g hg)
  have hbody : body back = [] := by
    have happend := List.takeWhile_append_dropWhile (p := Inner) (l := back)
    rw [afterBody] at hback
    rw [hback] at happend
    exact List.append_left_eq_self.1 happend
  rw [body, List.takeWhile_append_of_pos hinner]
  rw [body] at hbody
  rw [hbody, List.append_nil]

theorem records_append_of_inner {gs : List Group} (h : ∀ g ∈ gs, g.code ≠ 0) (back : List Group) :
    records (gs ++ back) = records back := by
  induction gs with
  | nil => rfl
  | cons g gs ih =>
    rw [List.cons_append, records_cons_of_inner (inner_iff.2 (h g List.mem_cons_self)),
      ih fun g hg => h g (List.mem_cons_of_mem _ hg)]

/-- The scan reads a list of groups record by record. What stands in a section of blocks has no
influence, and the body of a record of a recognised kind has influence on one entity at most. -/
theorem entities_eq_entitiesOf :
    (∀ gs, entities gs = entitiesOf false (records gs) ∧
      (records gs).flatMap RawRecord.groups = afterBody gs ∧
      ∀ r ∈ records gs, ∀ g ∈ r.body, g.code ≠ 0) ∧
    (∀ front inside back, (∀ g ∈ inside, g.code = 0 → g.value ≠ "SECTION" ∧ g.value ≠ "ENDSEC") →
      entities (front ++ ⟨0, "SECTION"⟩ :: ⟨2, "BLOCKS"⟩ :: (inside ++ back)) =
        entities (front ++ ⟨0, "SECTION"⟩ :: ⟨2, "BLOCKS"⟩ :: back)) ∧
    ∀ front name kind back, Kind.ofName? name = some kind → afterBody back = back →
      ∃ (inBlocks : Bool) (vertices : List (Point Float)) (rest : List (Entity Float)), ∀ gs,
        (∀ g ∈ gs, g.code ≠ 0) →
        entities (front ++ ⟨0, name⟩ :: (gs ++ back)) =
          entities front ++ (if inBlocks then none else kind.entity? gs vertices).toList ++
            rest := by
  refine ⟨fun gs => ⟨entitiesFrom_eq_entitiesOf false gs, flatMap_groups_records gs, ?_⟩, ?_, ?_⟩
  · exact fun r hr g hg => code_ne_zero_of_mem_records hr hg
  · intro front inside back hinside
    rw [entities_append_cons_of_head rfl (by decide), entities_append_cons_of_head rfl (by decide),
      entitiesOf_blocks, entitiesOf_blocks, entitiesOf_true_records_append hinside]
  · intro front name kind back hkind hback
    obtain ⟨hvertex, hsection, hend⟩ := Kind.name_ne_of_ofName? hkind
    let inBlocks := flagAfter false (records front)
    refine ⟨inBlocks, if kind = .polyline then leadingPoints (records back) else [],
      entitiesOf inBlocks (records back), fun gs hgs => ?_⟩
    have hentity : RawRecord.entity? ⟨name, gs⟩ (records back) =
        kind.entity? gs (if kind = .polyline then leadingPoints (records back) else []) := by
      rw [RawRecord.entity?, hkind, Option.bind_some]
    rw [entities_append_cons_of_head rfl hvertex, records_cons_of_head rfl, body_append hgs hback,
      records_append_of_inner hgs, entitiesOf, hentity,
      RawRecord.leavesInBlocks_of_ne hsection hend, List.append_assoc]

/-- A line in the blocks is left out, and the circle with its unreadable radius takes nothing else
away. -/
theorem entities_lineInBlocks_badCircle :
    let inside : List Group := [⟨0, "BLOCK"⟩, ⟨2, "B"⟩, ⟨0, "LINE"⟩, ⟨11, "1"⟩, ⟨0, "ENDBLK"⟩]
    let back : List Group :=
      [⟨0, "POLYLINE"⟩, ⟨70, "1"⟩, ⟨0, "VERTEX"⟩, ⟨10, "2"⟩, ⟨0, "VERTEX"⟩, ⟨20, "x"⟩]
    let front : List Group := [⟨0, "LINE"⟩, ⟨11, "3"⟩]
    let radius : List Group := [⟨40, "x"⟩]
    ((∀ g ∈ inside, g.code = 0 → g.value ≠ "SECTION" ∧ g.value ≠ "ENDSEC") ∧
        Kind.ofName? "CIRCLE" = some .circle ∧ afterBody back = back ∧ ∀ g ∈ radius, g.code ≠ 0) ∧
      entities (⟨0, "SECTION"⟩ :: ⟨2, "BLOCKS"⟩ :: (inside ++ ⟨0, "ENDSEC"⟩ :: back)) =
        [.polyline [⟨2, 0⟩] true] ∧
      ∃ (entity : Option (Entity Float)) (rest : List (Entity Float)),
        entities (front ++ ⟨0, "CIRCLE"⟩ :: (radius ++ back)) =
            entities front ++ entity.toList ++ rest := by
  intro inside back front radius
  have hinside : ∀ g ∈ inside, g.code = 0 → g.value ≠ "SECTION" ∧ g.value ≠ "ENDSEC" := by decide
  have hradius : ∀ g ∈ radius, g.code ≠ 0 := by decide
  obtain ⟨-, blocks, bodies⟩ := entities_eq_entitiesOf
  refine ⟨⟨hinside, rfl, rfl, hradius⟩, ?_, ?_⟩
  · refine (blocks [] inside (⟨0, "ENDSEC"⟩ :: back) hinside).trans ?_
    decide +kernel
  · obtain ⟨inBlocks, vertices, rest, hrest⟩ := bodies front "CIRCLE" .circle back rfl rfl
    exact ⟨_, rest, hrest radius hradius⟩

end Turnery.Dxf.Scan
