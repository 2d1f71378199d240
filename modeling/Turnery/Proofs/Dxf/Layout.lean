import Mathlib.Algebra.Ring.Int.Parity
import Mathlib.Data.List.Nodup
import Turnery.Proofs.Dxf.GroupText
import Turnery.Proofs.Dxf.Records

/-!
# Files that are laid out for entities

`Layout es gs` says that the groups `gs` are laid out for the entities `es`: part by part, with the
quantities of a record in any order and among foreign groups, with records of other kinds between
the entities, and with sections of blocks in front or between. Many files are laid out for the same
entities; `entities_groups_of_layout` says that the scan finds exactly these in each of them,
however the groups are written as text.
-/

namespace Turnery.Dxf.Scan

/-- The groups hold the quantities, each under its code and in this order. -/
def HoldEach (quantities : List (Int × Float)) (own : List Group) : Prop :=
  own.map (fun g => (g.code, Group.number? g)) = quantities.map fun q => (q.1, some q.2)

instance (quantities : List (Int × Float)) (own : List Group) :
    Decidable (HoldEach quantities own) :=
  inferInstanceAs (Decidable (_ = _))

/-- None of the groups has one of the codes, and none starts a record. -/
def AreForeign (codes : List Int) (others : List Group) : Prop :=
  ∀ g ∈ others, g.code ≠ 0 ∧ g.code ∉ codes

instance (codes : List Int) (others : List Group) : Decidable (AreForeign codes others) :=
  List.decidableBAll (fun g : Group => g.code ≠ 0 ∧ g.code ∉ codes) others

/-- The body holds each quantity once, in any order and among groups of other codes. -/
def Holds (quantities : List (Int × Float)) (body : List Group) : Prop :=
  ∃ own others, body.Perm (own ++ others) ∧ HoldEach quantities own ∧
    AreForeign (quantities.map Prod.fst) others

/-- Flags whose lowest bit says whether a polyline is closed; an open one may have none. -/
inductive HoldFlag : Bool → List Group → Prop where
  | absent : HoldFlag false []
  | present {value : String} {flags : Int} {closed : Bool}
    (read : Number.int32? value.toList = some flags)
    (closed_iff : closed = true ↔ Odd flags) : HoldFlag closed [⟨70, value⟩]

def vertexQuantities (p : Point Float) : List (Int × Float) :=
  [(10, p.x), (20, p.y)]

/-- Vertex records with the given bodies. -/
def vertexGroups (bodies : List (List Group)) : List Group :=
  bodies.flatMap fun body => ⟨0, "VERTEX"⟩ :: body

/-- The bodies hold the vertices, one each. -/
def HoldVertices (vertices : List (Point Float)) (bodies : List (List Group)) : Prop :=
  List.Forall₂ (fun p body => Holds (vertexQuantities p) body) vertices bodies

/-- The groups of an entity: those of its record, and for an old polyline those of its vertices
behind them. -/
inductive EntityLayout : Entity Float → List Group → Prop where
  | line {start finish : Point Float} {body : List Group}
    (holds : Holds [(10, start.x), (20, start.y), (11, finish.x), (21, finish.y)] body) :
    EntityLayout (.line start finish) (⟨0, "LINE"⟩ :: body)
  | lightPolyline {vertices : List (Point Float)} {closed : Bool}
    {body own flag others : List Group}
    (perm : body.Perm (flag ++ (own ++ others))) (in_order : own.Sublist body)
    (holds : HoldEach (vertices.flatMap vertexQuantities) own) (holds_flag : HoldFlag closed flag)
    (foreign : AreForeign [10, 20, 70] others) :
    EntityLayout (.polyline vertices closed) (⟨0, "LWPOLYLINE"⟩ :: body)
  | polyline {vertices : List (Point Float)} {closed : Bool} {body flag others : List Group}
    {bodies : List (List Group)} (perm : body.Perm (flag ++ others))
    (holds_flag : HoldFlag closed flag) (foreign : AreForeign [70] others)
    (holds : HoldVertices vertices bodies) :
    EntityLayout (.polyline vertices closed) (⟨0, "POLYLINE"⟩ :: (body ++ vertexGroups bodies))
  | circle {center : Point Float} {radius : Float} {body : List Group}
    (holds : Holds [(10, center.x), (20, center.y), (40, radius)] body) :
    EntityLayout (.circle center radius) (⟨0, "CIRCLE"⟩ :: body)
  | arc {center : Point Float} {radius startAngle endAngle : Float} {body : List Group}
    (holds : Holds [(10, center.x), (20, center.y), (40, radius), (50, startAngle),
      (51, endAngle)] body) :
    EntityLayout (.arc center radius startAngle endAngle) (⟨0, "ARC"⟩ :: body)

/-- A part of a file and the entities in it. -/
inductive PartLayout : List (Entity Float) → List Group → Prop where
  | entity {entity : Entity Float} {gs : List Group} (layout : EntityLayout entity gs) :
    PartLayout [entity] gs
  /-- A record of a kind that is not recognised. -/
  | unrecognised {name : String} {body : List Group} (kind : Kind.ofName? name = none)
    (section_ne : name ≠ "SECTION") (end_ne : name ≠ "ENDSEC") (vertex_ne : name ≠ "VERTEX")
    (inner : ∀ g ∈ body, g.code ≠ 0) : PartLayout [] (⟨0, name⟩ :: body)
  /-- The start of a section other than one of blocks. -/
  | opening {body : List Group} (inner : ∀ g ∈ body, g.code ≠ 0)
    (not_blocks : body.head? ≠ some ⟨2, "BLOCKS"⟩) :
    PartLayout [] (⟨0, "SECTION"⟩ :: body)
  | closing {body : List Group} (inner : ∀ g ∈ body, g.code ≠ 0) :
    PartLayout [] (⟨0, "ENDSEC"⟩ :: body)
  /-- A whole section of blocks. -/
  | blocks {content : List Group}
    (no_section : ∀ g ∈ content, g.code = 0 → g.value ≠ "SECTION" ∧ g.value ≠ "ENDSEC") :
    PartLayout [] (⟨0, "SECTION"⟩ :: ⟨2, "BLOCKS"⟩ :: (content ++ [⟨0, "ENDSEC"⟩]))

/-- A file part by part, and the entities of all parts. -/
inductive Layout : List (Entity Float) → List Group → Prop where
  | nil : Layout [] []
  | cons {entities others : List (Entity Float)} {part rest : List Group}
    (first : PartLayout entities part)
    (layout : Layout others rest) : Layout (entities ++ others) (part ++ rest)

theorem HoldEach.exists_of_mem {quantities : List (Int × Float)} {own : List Group}
    (h : HoldEach quantities own) {q : Int × Float} (hq : q ∈ quantities) :
    ∃ g ∈ own, g.code = q.1 ∧ Group.number? g = some q.2 := by
  have hmem : (q.1, some q.2) ∈ own.map fun g => (g.code, Group.number? g) := by
    rw [h]
    exact List.mem_map_of_mem hq
  obtain ⟨g, hg, heq⟩ := List.mem_map.1 hmem
  exact ⟨g, hg, (Prod.mk.inj heq).1, (Prod.mk.inj heq).2⟩

theorem HoldEach.exists_of_mem_own {quantities : List (Int × Float)} {own : List Group}
    (h : HoldEach quantities own) {g : Group} (hg : g ∈ own) :
    ∃ q ∈ quantities, g.code = q.1 ∧ Group.number? g = some q.2 := by
  have hmem : (g.code, Group.number? g) ∈ quantities.map fun q => (q.1, some q.2) := by
    rw [← h]
    exact List.mem_map_of_mem hg
  obtain ⟨q, hq, heq⟩ := List.mem_map.1 hmem
  exact ⟨q, hq, (Prod.mk.inj heq).1.symm, (Prod.mk.inj heq).2.symm⟩

theorem HoldEach.code_mem {quantities : List (Int × Float)} {own : List Group}
    (h : HoldEach quantities own) {g : Group} (hg : g ∈ own) :
    g.code ∈ quantities.map Prod.fst := by
  obtain ⟨q, hq, hcode, -⟩ := h.exists_of_mem_own hg
  rw [hcode]
  exact List.mem_map_of_mem hq

theorem Holds.code_ne_zero {quantities : List (Int × Float)} {body : List Group}
    (h : Holds quantities body) (hcodes : 0 ∉ quantities.map Prod.fst) {g : Group} (hg : g ∈ body) :
    g.code ≠ 0 := by
  obtain ⟨own, others, hperm, hown, hothers⟩ := h
  rcases List.mem_append.1 (hperm.mem_iff.1 hg) with hg | hg
  · exact ne_of_mem_of_not_mem (hown.code_mem hg) hcodes
  · exact (hothers g hg).1

/-- Looking for the code of a quantity finds the quantity. -/
theorem Holds.find?_bind {quantities : List (Int × Float)} {body : List Group}
    (h : Holds quantities body) (hcodes : (quantities.map Prod.fst).Nodup) {code : Int} {x : Float}
    (hq : (code, x) ∈ quantities) :
    ∃ g, body.find? (·.code == code) = some g ∧ Group.number? g = some x := by
  obtain ⟨own, others, hperm, hown, hothers⟩ := h
  obtain ⟨first, hfirst, hcode, -⟩ := hown.exists_of_mem hq
  have hsome : (body.find? (·.code == code)).isSome := by
    rw [List.find?_isSome]
    exact ⟨first, hperm.mem_iff.2 (List.mem_append_left _ hfirst), beq_iff_eq.2 hcode⟩
  obtain ⟨g, hg⟩ := Option.isSome_iff_exists.1 hsome
  have hgcode : g.code = code := by simpa using List.find?_some hg
  refine ⟨g, hg, ?_⟩
  rcases List.mem_append.1 (hperm.mem_iff.1 (List.mem_of_find?_eq_some hg)) with hmem | hmem
  · obtain ⟨⟨code', x'⟩, hq', hcode', hx'⟩ := hown.exists_of_mem_own hmem
    obtain rfl : code' = code := hcode'.symm.trans hgcode
    rw [hx', List.inj_on_of_nodup_map hcodes hq' hq rfl]
  · exact absurd (List.mem_map_of_mem hq) (hgcode ▸ (hothers g hmem).2)

theorem Holds.quantity? {quantities : List (Int × Float)} {body : List Group}
    (h : Holds quantities body) (hcodes : (quantities.map Prod.fst).Nodup) {code : Int} {x : Float}
    (hq : (code, x) ∈ quantities) :
    quantity? body code = some x := by
  obtain ⟨g, hg, hx⟩ := h.find?_bind hcodes hq
  rw [Scan.quantity?, hg, Option.bind_some, hx]

theorem Holds.quantityOr? {quantities : List (Int × Float)} {body : List Group}
    (h : Holds quantities body) (hcodes : (quantities.map Prod.fst).Nodup) {code : Int} {x : Float}
    (hq : (code, x) ∈ quantities) (standard : Float) : quantityOr? body code standard = some x := by
  obtain ⟨g, hg, hx⟩ := h.find?_bind hcodes hq
  rw [Scan.quantityOr?, hg]
  exact hx

theorem Holds.point? {quantities : List (Int × Float)} {body : List Group}
    (h : Holds quantities body) (hcodes : (quantities.map Prod.fst).Nodup) {xCode yCode : Int}
    {p : Point Float} (hx : (xCode, p.x) ∈ quantities) (hy : (yCode, p.y) ∈ quantities) :
    point? body xCode yCode = some p := by
  rw [Scan.point?, h.quantityOr? hcodes hx, h.quantityOr? hcodes hy]
  rfl

theorem HoldFlag.code_eq {closed : Bool} {flag : List Group} (h : HoldFlag closed flag) {g : Group}
    (hg : g ∈ flag) :
    g.code = 70 := by
  cases h with
  | absent => cases hg
  | present => rw [List.mem_singleton.1 hg]

theorem HoldFlag.isClosed {closed : Bool} {flag others body : List Group} (h : HoldFlag closed flag)
    (hperm : body.Perm (flag ++ others)) (hothers : ∀ g ∈ others, g.code ≠ 70) :
    isClosed body = closed := by
  cases h with
  | absent =>
    have hnone : body.find? (·.code == 70) = none := by
      rw [List.find?_eq_none]
      intro g hg
      simpa using hothers g (hperm.mem_iff.1 hg)
    rw [Scan.isClosed, hnone, Option.bind_none]
  | @present value flags closed hread hiff =>
    have hsome : (body.find? (·.code == 70)).isSome := by
      rw [List.find?_isSome]
      exact ⟨⟨70, value⟩, hperm.mem_iff.2 List.mem_cons_self, rfl⟩
    obtain ⟨g, hg⟩ := Option.isSome_iff_exists.1 hsome
    have hcode : g.code = 70 := by simpa using List.find?_some hg
    obtain rfl | hmem := List.mem_cons.1 (hperm.mem_iff.1 (List.mem_of_find?_eq_some hg))
    · rw [Scan.isClosed, hg, Option.bind_some, hread, Bool.eq_iff_iff, hiff, Int.odd_iff]
      have := Int.emod_two_eq_zero_or_one flags
      simp only [bne_iff_ne]
      omega
    · exact absurd hcode (hothers g hmem)

/-- The group says something about a vertex. -/
def IsOrdinate (g : Group) : Bool :=
  g.code == 10 || g.code == 20

theorem isOrdinate_of_code_mem {g : Group} {vertices : List (Point Float)}
    (h : g.code ∈ (vertices.flatMap vertexQuantities).map Prod.fst) : IsOrdinate g = true := by
  obtain ⟨q, hq, hcode⟩ := List.mem_map.1 h
  obtain ⟨p, -, hp⟩ := List.mem_flatMap.1 hq
  rw [IsOrdinate, ← hcode]
  rcases List.mem_pair.1 hp with rfl | rfl
  · rfl
  · rfl

theorem lightVertices?_cons_of_abscissa {g : Group} (h : (g.code == 10) = true)
    (pending : Option Float) (rest : List Group) :
    lightVertices? pending (g :: rest) = (Group.number? g).bind fun x =>
      lightVertices? (some x) rest := by
  cases pending with
  | none => rw [lightVertices?, if_pos h]; rfl
  | some y => rw [lightVertices?, if_pos h]; rfl

/-- Vertices are read from the groups of the two codes alone. -/
theorem lightVertices?_filter (pending : Option Float) (gs : List Group) :
    lightVertices? pending (gs.filter IsOrdinate) = lightVertices? pending gs := by
  fun_induction lightVertices? pending gs with
  | case1 => rfl
  | case2 pending g rest h10 ih =>
    rw [List.filter_cons_of_pos (by simp [IsOrdinate, beq_iff_eq.1 h10]),
      lightVertices?_cons_of_abscissa h10]
    exact congrArg _ (funext ih)
  | case3 g rest h10 h20 ih =>
    rw [List.filter_cons_of_pos (by simp [IsOrdinate, beq_iff_eq.1 h20]), lightVertices?,
      if_neg h10, if_pos h20]
    exact ih
  | case4 g rest h10 h20 x ih =>
    rw [List.filter_cons_of_pos (by simp [IsOrdinate, beq_iff_eq.1 h20]), lightVertices?,
      if_neg h10, if_pos h20]
    simp only [ih]
  | case5 pending g rest h10 h20 ih =>
    rw [List.filter_cons_of_neg (by simp_all [IsOrdinate]), ih]

/-- Ordinates in the order of the vertices are read as the vertices. -/
theorem HoldEach.lightVertices? {vertices : List (Point Float)} {own : List Group}
    (h : HoldEach (vertices.flatMap vertexQuantities) own) :
    lightVertices? none own = some vertices := by
  induction vertices generalizing own with
  | nil =>
    obtain rfl : own = [] := List.map_eq_nil_iff.1 h
    rfl
  | cons p vertices ih =>
    obtain ⟨gx, own, rfl, hx, hrest⟩ := List.map_eq_cons_iff.1 h
    obtain ⟨gy, own, rfl, hy, hothers⟩ := List.map_eq_cons_iff.1 hrest
    obtain ⟨hxcode, hxnumber⟩ := Prod.mk.inj hx
    obtain ⟨hycode, hynumber⟩ := Prod.mk.inj hy
    rw [Scan.lightVertices?, if_pos (beq_iff_eq.2 hxcode), hxnumber]
    show Scan.lightVertices? (some p.x) (gy :: own) = some (p :: vertices)
    rw [Scan.lightVertices?, if_neg (by simp [hycode]), if_pos (beq_iff_eq.2 hycode)]
    simp only [hynumber, ih hothers]
    rfl

/-- Where the ordinates stand among the other groups does not matter. -/
theorem lightVertices?_of_perm {vertices : List (Point Float)} {body own others : List Group}
    (hperm : body.Perm (own ++ others)) (horder : own.Sublist body)
    (holds : HoldEach (vertices.flatMap vertexQuantities) own)
    (hothers : ∀ g ∈ others, IsOrdinate g = false) : lightVertices? none body = some vertices := by
  have hown : own.filter IsOrdinate = own :=
    List.filter_eq_self.2 fun g hg => isOrdinate_of_code_mem (holds.code_mem hg)
  have hnone : others.filter IsOrdinate = [] :=
    List.filter_eq_nil_iff.2 fun g hg => by simp [hothers g hg]
  have hfilter : (body.filter IsOrdinate).Perm own := by
    have := hperm.filter IsOrdinate
    rwa [List.filter_append, hown, hnone, List.append_nil] at this
  have heq : own = body.filter IsOrdinate := by
    have hsublist := horder.filter IsOrdinate
    rw [hown] at hsublist
    exact hsublist.eq_of_length hfilter.length_eq.symm
  rw [← lightVertices?_filter, ← heq]
  exact holds.lightVertices?

/-- Groups that start with a record end the records before them. -/
theorem records_append {back : List Group} (h : ∀ g ∈ back.head?, g.code = 0) (front : List Group) :
    records (front ++ back) = records front ++ records back := by
  cases back with
  | nil => simp [records]
  | cons g back => exact records_append_cons_of_head (inner_eq_false_iff.2 (h g rfl)) front back

theorem records_singleton {name : String} {body : List Group} (h : ∀ g ∈ body, g.code ≠ 0) :
    records (⟨0, name⟩ :: body) = [⟨name, body⟩] := by
  have hbody : Scan.body (body ++ []) = body := body_append h rfl
  have hnone := records_append_of_inner h []
  rw [List.append_nil] at hbody hnone
  rw [records_cons_of_head rfl, hbody, hnone]
  rfl

theorem head?_vertexGroups (bodies : List (List Group)) :
    ∀ g ∈ (vertexGroups bodies).head?, g.code = 0 := by
  cases bodies with
  | nil => simp [vertexGroups]
  | cons => simp [vertexGroups]

theorem records_vertexGroups {bodies : List (List Group)}
    (h : ∀ body ∈ bodies, ∀ g ∈ body, g.code ≠ 0) :
    records (vertexGroups bodies) = bodies.map fun body => ⟨"VERTEX", body⟩ := by
  induction bodies with
  | nil => rfl
  | cons first bodies ih =>
    obtain ⟨hfirst, hrest⟩ := List.forall_mem_cons.1 h
    rw [vertexGroups, List.flatMap_cons, ← vertexGroups, records_append (head?_vertexGroups bodies),
      records_singleton hfirst, ih hrest]
    rfl

theorem flagAfter_of_isVertex (inBlocks : Bool) {rs : List RawRecord}
    (h : ∀ r ∈ rs, r.isVertex = true) :
    flagAfter inBlocks rs = inBlocks := by
  induction rs with
  | nil => rfl
  | cons r rs ih =>
    obtain ⟨hr, hrs⟩ := List.forall_mem_cons.1 h
    have hname : r.name = "VERTEX" := beq_iff_eq.1 hr
    rw [flagAfter, List.foldl_cons,
      RawRecord.leavesInBlocks_of_ne (by simp [hname]) (by simp [hname]), ← flagAfter, ih hrs]

/-- Outside the blocks the groups are read as the entities, and what follows them stands outside as
well. -/
structure ReadAs (es : List (Entity Float)) (gs : List Group) : Prop where
  entities_eq : entities gs = es
  outside : flagAfter false (records gs) = false
  head : ∀ g ∈ gs.head?, g.code = 0 ∧ g.value ≠ "VERTEX"

theorem ReadAs.nil : ReadAs [] [] where
  entities_eq := by rw [entities, entitiesFrom]
  outside := rfl
  head := by simp

/-- Groups one after the other are read as the entities of both. -/
theorem ReadAs.append {es others : List (Entity Float)} {gs rest : List Group} (h : ReadAs es gs)
    (hrest : ReadAs others rest) : ReadAs (es ++ others) (gs ++ rest) where
  entities_eq := by
    cases rest with
    | nil =>
      obtain rfl : [] = others := ReadAs.nil.entities_eq.symm.trans hrest.entities_eq
      rw [List.append_nil, List.append_nil, h.entities_eq]
    | cons g rest =>
      obtain ⟨hcode, hname⟩ := hrest.head g rfl
      rw [entities_append_cons_of_head hcode hname, h.entities_eq, h.outside,
        ← entitiesFrom_eq_entitiesOf, ← entities, hrest.entities_eq]
  outside := by
    rw [records_append (fun g hg => (hrest.head g hg).1), flagAfter, List.foldl_append, ← flagAfter,
      ← flagAfter, h.outside, hrest.outside]
  head := by
    cases gs with
    | nil => exact hrest.head
    | cons g gs => exact h.head

/-- A record on its own. -/
theorem readAs_record {name : String} {body : List Group} (hbody : ∀ g ∈ body, g.code ≠ 0)
    (hvertex : name ≠ "VERTEX") (hflag : RawRecord.leavesInBlocks false ⟨name, body⟩ = false) :
    ReadAs (RawRecord.entity? ⟨name, body⟩ []).toList (⟨0, name⟩ :: body) where
  entities_eq := by
    rw [entities, entitiesFrom_eq_entitiesOf, records_singleton hbody, entitiesOf, entitiesOf,
      List.append_nil, if_neg Bool.false_ne_true]
  outside := by
    rw [records_singleton hbody]
    exact hflag
  head := by
    intro g hg
    obtain rfl := Option.some.inj hg
    exact ⟨rfl, hvertex⟩

/-- A record of a recognised kind, with nothing behind it that it takes. -/
theorem readAs_of_entity? (kind : Kind) {name : String} {body : List Group} {entity : Entity Float}
    (hkind : Kind.ofName? name = some kind) (hbody : ∀ g ∈ body, g.code ≠ 0)
    (hentity : kind.entity? body [] = some entity) : ReadAs [entity] (⟨0, name⟩ :: body) := by
  obtain ⟨hvertex, hsection, hend⟩ := Kind.name_ne_of_ofName? hkind
  have hrecord := readAs_record hbody hvertex (RawRecord.leavesInBlocks_of_ne hsection hend false)
  have hread : RawRecord.entity? ⟨name, body⟩ [] = some entity := by
    rw [RawRecord.entity?, hkind, Option.bind_some, ← hentity]
    split <;> rfl
  rwa [hread] at hrecord

theorem HoldVertices.leadingPoints {vertices : List (Point Float)} {bodies : List (List Group)}
    (h : HoldVertices vertices bodies) :
    leadingPoints (bodies.map fun body => ⟨"VERTEX", body⟩) = vertices := by
  induction h with
  | nil => rfl
  | @cons p body _ _ hfirst _ ih =>
    have hpoint : point? body 10 20 = some p :=
      hfirst.point? (by simp [vertexQuantities]) List.mem_cons_self
        (List.mem_cons_of_mem _ List.mem_cons_self)
    rw [List.map_cons, leadingPoints_cons_of_isVertex rfl, ih, hpoint]
    rfl

theorem HoldVertices.code_ne_zero {vertices : List (Point Float)} {bodies : List (List Group)}
    (h : HoldVertices vertices bodies) : ∀ body ∈ bodies, ∀ g ∈ body, g.code ≠ 0 := by
  induction h with
  | nil => exact List.forall_mem_nil _
  | cons hfirst _ ih =>
    exact List.forall_mem_cons.2 ⟨fun g hg => hfirst.code_ne_zero (by simp [vertexQuantities]) hg,
      ih⟩

/-- An old polyline and the vertices behind it. -/
theorem readAs_polyline {vertices : List (Point Float)} {body : List Group}
    {bodies : List (List Group)} (hbody : ∀ g ∈ body, g.code ≠ 0)
    (h : HoldVertices vertices bodies) :
    ReadAs [.polyline vertices (isClosed body)]
      (⟨0, "POLYLINE"⟩ :: (body ++ vertexGroups bodies)) := by
  obtain ⟨hvertex, hsection, hend⟩ :=
    Kind.name_ne_of_ofName? (show Kind.ofName? "POLYLINE" = some .polyline from rfl)
  have hrecords : records (⟨0, "POLYLINE"⟩ :: (body ++ vertexGroups bodies)) =
      ⟨"POLYLINE", body⟩ :: bodies.map fun body => ⟨"VERTEX", body⟩ := by
    rw [← List.cons_append, records_append (head?_vertexGroups bodies), records_singleton hbody,
      records_vertexGroups h.code_ne_zero]
    rfl
  have hvertices : ∀ r ∈ bodies.map fun body =>
      (⟨"VERTEX", body⟩ : RawRecord), r.isVertex = true := by
    intro r hr
    obtain ⟨body, -, rfl⟩ := List.mem_map.1 hr
    rfl
  refine ⟨?_, ?_, ?_⟩
  · have hnone := entitiesOf_vertices_append false hvertices []
    rw [List.append_nil] at hnone
    rw [entities, entitiesFrom_eq_entitiesOf, hrecords, entitiesOf, if_neg Bool.false_ne_true,
      RawRecord.leavesInBlocks_of_ne hsection hend, hnone]
    show [Entity.polyline (leadingPoints _) (isClosed body)] = _
    rw [h.leadingPoints]
  · rw [hrecords, flagAfter, List.foldl_cons, RawRecord.leavesInBlocks_of_ne hsection hend,
      ← flagAfter, flagAfter_of_isVertex false hvertices]
  · intro g hg
    obtain rfl := Option.some.inj hg
    exact ⟨rfl, hvertex⟩

theorem EntityLayout.readAs {entity : Entity Float} {gs : List Group} (h : EntityLayout entity gs) :
    ReadAs [entity] gs := by
  cases h with
  | @line start finish body holds =>
    have hstart : point? body 10 20 = some start := holds.point? (by simp) (by simp) (by simp)
    have hfinish : point? body 11 21 = some finish := holds.point? (by simp) (by simp) (by simp)
    refine readAs_of_entity? .line rfl (fun g hg => holds.code_ne_zero (by simp) hg) ?_
    rw [Kind.entity?, hstart, hfinish]
    rfl
  | @lightPolyline vertices closed body own flag others perm in_order holds holds_flag foreign =>
    have hothers : ∀ g ∈ others, g.code ≠ 0 ∧ g.code ≠ 10 ∧ g.code ≠ 20 ∧ g.code ≠ 70 := by
      simpa [AreForeign] using foreign
    have hown : ∀ g ∈ own, IsOrdinate g = true :=
      fun g hg => isOrdinate_of_code_mem (holds.code_mem hg)
    have hclosed : isClosed body = closed := by
      refine holds_flag.isClosed perm fun g hg hcode => ?_
      rcases List.mem_append.1 hg with hg | hg
      · exact absurd (hown g hg) (by simp [IsOrdinate, hcode])
      · exact (hothers g hg).2.2.2 hcode
    have hvertices : lightVertices? none body = some vertices := by
      refine lightVertices?_of_perm (perm.trans (List.perm_append_comm_assoc ..)) in_order holds
        fun g hg => ?_
      rcases List.mem_append.1 hg with hg | hg
      · simp [IsOrdinate, holds_flag.code_eq hg]
      · simp [IsOrdinate, hothers g hg]
    have hbody : ∀ g ∈ body, g.code ≠ 0 := by
      intro g hg hcode
      rcases List.mem_append.1 (perm.mem_iff.1 hg) with hg | hg
      · exact absurd (holds_flag.code_eq hg) (by simp [hcode])
      · rcases List.mem_append.1 hg with hg | hg
        · exact absurd (hown g hg) (by simp [IsOrdinate, hcode])
        · exact (hothers g hg).1 hcode
    refine readAs_of_entity? .lightPolyline rfl hbody ?_
    rw [Kind.entity?, hvertices, hclosed]
    rfl
  | @polyline vertices closed body flag others bodies perm holds_flag foreign holds =>
    have hclosed : isClosed body = closed :=
      holds_flag.isClosed perm fun g hg hcode => (foreign g hg).2 (by simp [hcode])
    have hbody : ∀ g ∈ body, g.code ≠ 0 := by
      intro g hg
      rcases List.mem_append.1 (perm.mem_iff.1 hg) with hg | hg
      · simp [holds_flag.code_eq hg]
      · exact (foreign g hg).1
    have hread := readAs_polyline hbody holds
    rwa [hclosed] at hread
  | @circle center radius body holds =>
    have hcenter : point? body 10 20 = some center := holds.point? (by simp) (by simp) (by simp)
    have hradius : quantity? body 40 = some radius := holds.quantity? (by simp) (by simp)
    refine readAs_of_entity? .circle rfl (fun g hg => holds.code_ne_zero (by simp) hg) ?_
    rw [Kind.entity?, hcenter, hradius]
    rfl
  | @arc center radius startAngle endAngle body holds =>
    have hcenter : point? body 10 20 = some center := holds.point? (by simp) (by simp) (by simp)
    have hradius : quantity? body 40 = some radius := holds.quantity? (by simp) (by simp)
    have hstart : quantity? body 50 = some startAngle := holds.quantity? (by simp) (by simp)
    have hend : quantity? body 51 = some endAngle := holds.quantity? (by simp) (by simp)
    refine readAs_of_entity? .arc rfl (fun g hg => holds.code_ne_zero (by simp) hg) ?_
    rw [Kind.entity?, hcenter, hradius, hstart, hend]
    rfl

theorem PartLayout.readAs {es : List (Entity Float)} {gs : List Group} (h : PartLayout es gs) :
    ReadAs es gs := by
  cases h with
  | entity layout => exact layout.readAs
  | @unrecognised name body kind section_ne end_ne vertex_ne inner =>
    have hrecord :=
      readAs_record inner vertex_ne (RawRecord.leavesInBlocks_of_ne section_ne end_ne false)
    rwa [RawRecord.entity?_of_ofName?_eq_none kind] at hrecord
  | @opening body inner not_blocks =>
    have hflag : namesBlocks body = false := by
      cases body with
      | nil => rfl
      | cons g body =>
        rw [namesBlocks, Bool.and_eq_false_iff, beq_eq_false_iff_ne, beq_eq_false_iff_ne]
        by_contra hboth
        rw [not_or, not_not, not_not] at hboth
        obtain ⟨hcode, hvalue⟩ := hboth
        exact not_blocks (by rw [List.head?_cons, ← hcode, ← hvalue])
    have hvertex : "SECTION" ≠ "VERTEX" := by decide
    exact readAs_record inner hvertex hflag
  | closing inner =>
    have hvertex : "ENDSEC" ≠ "VERTEX" := by decide
    exact readAs_record inner hvertex rfl
  | @blocks content no_section =>
    refine ⟨?_, ?_, ?_⟩
    · rw [entities, entitiesFrom_eq_entitiesOf, entitiesOf_blocks,
        entitiesOf_true_records_append no_section]
      rfl
    · have hend : ∀ g ∈ [(⟨0, "ENDSEC"⟩ : Group)].head?, g.code = 0 := by simp
      rw [records_cons_of_head rfl, records_cons_of_inner rfl, records_append hend, flagAfter,
        List.foldl_cons, List.foldl_append]
      rfl
    · intro g hg
      obtain rfl := Option.some.inj hg
      exact ⟨rfl, by decide⟩

/-- A file is read as the entities of its parts. -/
theorem Layout.readAs {es : List (Entity Float)} {gs : List Group} (h : Layout es gs) :
    ReadAs es gs := by
  induction h with
  | nil => exact ReadAs.nil
  | cons first _ ih => exact first.readAs.append ih

/-- Whatever way entities are laid out and written as text, the scan reads them back. -/
theorem entities_groups_of_layout {es : List (Entity Float)} {gs : List Group} {text : String}
    (layout : Layout es gs) (written : IsWritten gs text.toList) : entities (groups text) = es := by
  rw [groups_of_isWritten written, layout.readAs.entities_eq]

/-- A section of blocks, a light polyline, a text, an old polyline with one vertex and its end, and
an arc. -/
theorem entities_groups_of_layout_blocksFirst :
    let es : List (Entity Float) :=
      [.polyline [⟨1, 2.5⟩, ⟨10, -3⟩] true, .polyline [⟨0.5, 4⟩] false, .arc ⟨0, 7⟩ 2 45 90]
    let light : List Group :=
      [⟨10, "1"⟩, ⟨70, "129"⟩, ⟨20, "2.5"⟩, ⟨42, "x"⟩, ⟨10, "1e1"⟩, ⟨20, "-3"⟩]
    let polyline : List Group := [⟨66, "1"⟩]
    let vertex : List Group := [⟨20, "4"⟩, ⟨8, "0"⟩, ⟨10, ".5"⟩]
    let arc : List Group := [⟨51, "90"⟩, ⟨40, "2"⟩, ⟨20, "7"⟩, ⟨10, "0"⟩, ⟨70, "1"⟩, ⟨50, "45"⟩]
    let gs : List Group := [⟨0, "SECTION"⟩, ⟨2, "BLOCKS"⟩, ⟨0, "LINE"⟩, ⟨0, "ENDSEC"⟩] ++
      ([⟨0, "SECTION"⟩, ⟨2, "ENTITIES"⟩] ++
        ((⟨0, "LWPOLYLINE"⟩ :: light) ++ ([⟨0, "TEXT"⟩, ⟨10, "9"⟩] ++
        ((⟨0, "POLYLINE"⟩ :: (polyline ++ vertexGroups [vertex])) ++ ([⟨0, "SEQEND"⟩] ++
          ((⟨0, "ARC"⟩ :: arc) ++ ([⟨0, "ENDSEC"⟩] ++ [])))))))
    let text := String.ofList
      (plainText "  ".toList ['\r', '\n'] (gs.map fun g => ((toString g.code).toList, g)))
    Layout es gs ∧ IsWritten gs text.toList ∧ entities (groups text) = es := by
  intro es light polyline vertex arc gs text
  have hlight : EntityLayout (.polyline [⟨1, 2.5⟩, ⟨10, -3⟩] true)
      (⟨0, "LWPOLYLINE"⟩ :: light) := by
    let own : List Group := [⟨10, "1"⟩, ⟨20, "2.5"⟩, ⟨10, "1e1"⟩, ⟨20, "-3"⟩]
    have hread : Number.int32? "129".toList = some 129 := by decide +kernel
    have hflag : HoldFlag true [⟨70, "129"⟩] := .present hread (by decide)
    have hperm : light.Perm ([⟨70, "129"⟩] ++ (own ++ [⟨42, "x"⟩])) := by decide
    exact .lightPolyline hperm (by decide) (by decide +kernel) hflag (by decide)
  have hpolyline : EntityLayout (.polyline [⟨0.5, 4⟩] false)
      (⟨0, "POLYLINE"⟩ :: (polyline ++ vertexGroups [vertex])) := by
    have hvertex : Holds (vertexQuantities ⟨0.5, 4⟩) vertex :=
      ⟨[⟨10, ".5"⟩, ⟨20, "4"⟩], [⟨8, "0"⟩], by decide, by decide +kernel, by decide⟩
    have hperm : polyline.Perm ([] ++ polyline) := List.Perm.refl _
    exact .polyline hperm .absent (by decide) (.cons hvertex .nil)
  have harc : EntityLayout (.arc ⟨0, 7⟩ 2 45 90) (⟨0, "ARC"⟩ :: arc) :=
    .arc ⟨[⟨10, "0"⟩, ⟨20, "7"⟩, ⟨40, "2"⟩, ⟨50, "45"⟩, ⟨51, "90"⟩], [⟨70, "1"⟩],
      by decide, by decide +kernel, by decide⟩
  have layout : Layout es gs :=
    .cons (@PartLayout.blocks [⟨0, "LINE"⟩] (by decide)) <|
    .cons (@PartLayout.opening [⟨2, "ENTITIES"⟩] (by decide) (by decide)) <|
    .cons (.entity hlight) <|
    .cons (@PartLayout.unrecognised "TEXT" [⟨10, "9"⟩] rfl (by decide) (by decide) (by decide)
      (by decide)) <|
    .cons (.entity hpolyline) <|
    .cons (@PartLayout.unrecognised "SEQEND" [] rfl (by decide) (by decide) (by decide)
      (by decide)) <|
    .cons (.entity harc) <|
    .cons (@PartLayout.closing [] (by decide)) .nil
  have written : IsWritten gs text.toList := by
    have hpadding : IsPadding "  ".toList := by decide
    have hwritable : ∀ p ∈ gs.map fun g => ((toString g.code).toList, g), IsWritable p := by
      decide +kernel
    rw [String.toList_ofList]
    exact isWritten_plainText hpadding .carriageReturn hwritable
  exact ⟨layout, written, entities_groups_of_layout layout written⟩

end Turnery.Dxf.Scan
