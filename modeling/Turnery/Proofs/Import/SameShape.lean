import Mathlib.Data.List.Basic
import Turnery.Import.Standard
import Turnery.Proofs.Import.Finite
import Turnery.Proofs.Number.NonFinite

/-!
# One shape in entities and records

An open polyline, a circle and an arc can stand in a DXF file and in the records of the normalizer.
The two decoders check the numbers of a shape at different times: those of a record before it is
drawn, those of an entity by the points that come of them. They nevertheless accept the same numbers
and draw the same polyline, unless finite numbers lead to points that are too far out for doubles.
`standard_tiers_agree` says so of single shapes and of whole drawings, for the tessellation that the
standard tiers share.
-/

namespace Turnery

namespace Tessellation

/-- A number of segments that a tessellation has is taken as it is. -/
theorem ofNat_segments (tess : Tessellation) : ofNat tess.segments = tess := by
  have hmax : max tess.segments 1 = tess.segments := Nat.max_eq_left tess.segments_pos
  simp only [ofNat, hmax]

variable {tess : Tessellation} {center : Point Float} {radius t startDegrees endDegrees : Float}

theorem isFinite_of_circlePoint (h : (circlePoint center radius t).isFinite = true) :
    center.isFinite = true ∧ radius.isFinite = true ∧ t.isFinite = true := by
  obtain ⟨hx, hy⟩ := Point.isFinite_iff.1 h
  obtain ⟨hcenterX, hoffset⟩ := Number.isFinite_of_add hx
  obtain ⟨hcenterY, -⟩ := Number.isFinite_of_add hy
  obtain ⟨hradius, hcosine⟩ := Number.isFinite_of_mul hoffset
  exact ⟨Point.isFinite_iff.2 ⟨hcenterX, hcenterY⟩, hradius, Number.isFinite_of_cosine hcosine⟩

theorem isFinite_of_circle (h : (tess.circle center radius).isFinite = true) :
    center.isFinite = true ∧ radius.isFinite = true := by
  have hmem : circlePoint center radius (Scalar.tau * Scalar.ofNat 0 / Scalar.ofNat tess.segments) ∈
      (tess.circle center radius).points :=
    List.mem_append_left _ (List.mem_map_of_mem (List.mem_range.2 tess.segments_pos))
  obtain ⟨hcenter, hradius, -⟩ := isFinite_of_circlePoint (List.all_eq_true.1 h _ hmem)
  exact ⟨hcenter, hradius⟩

/-- Every angle of an arc is computed from both of its ends. -/
theorem isFinite_of_mem_arcAngles (ht : t ∈ tess.arcAngles startDegrees endDegrees)
    (h : t.isFinite = true) :
    startDegrees.isFinite = true ∧ endDegrees.isFinite = true := by
  obtain ⟨i, -, rfl⟩ := List.mem_map.1 ht
  obtain ⟨hstart, hstep⟩ := Number.isFinite_of_add h
  obtain ⟨hsweep, -⟩ := Number.isFinite_of_mul hstep
  obtain ⟨hfinish, -⟩ := Number.isFinite_of_sub hsweep
  have hstartDegrees : startDegrees.isFinite = true := (Number.isFinite_of_mul hstart).1
  split at hfinish
  · exact ⟨hstartDegrees, (Number.isFinite_of_mul (Number.isFinite_of_add hfinish).1).1⟩
  · exact ⟨hstartDegrees, (Number.isFinite_of_mul hfinish).1⟩

theorem isFinite_of_arc (h : (tess.arc center radius startDegrees endDegrees).isFinite = true) :
    center.isFinite = true ∧ radius.isFinite = true ∧ startDegrees.isFinite = true ∧
      endDegrees.isFinite = true := by
  have hne : tess.arcAngles startDegrees endDegrees ≠ [] := by
    simp [arcAngles, parameters]
  obtain ⟨t, ht⟩ := List.exists_mem_of_ne_nil _ hne
  have hmem : circlePoint center radius t ∈
      (tess.arc center radius startDegrees endDegrees).points :=
    List.mem_map_of_mem ht
  obtain ⟨hcenter, hradius, hangle⟩ := isFinite_of_circlePoint (List.all_eq_true.1 h _ hmem)
  exact ⟨hcenter, hradius, isFinite_of_mem_arcAngles ht hangle⟩

end Tessellation

/-- The numbers of a shape that a record can hold. -/
def Entity.numbers : Entity Float → List Float
  | .polyline vertices _ => vertices.flatMap fun p => [p.x, p.y]
  | .circle center radius => [center.x, center.y, radius]
  | .arc center radius startAngle endAngle => [center.x, center.y, radius, startAngle, endAngle]
  | _ => []

theorem Entity.isFinite_numbers_polyline {vertices : List (Point Float)} {closed : Bool} :
    (∀ x ∈ (Entity.polyline vertices closed).numbers, x.isFinite = true) ↔
      ∀ p ∈ vertices, p.isFinite = true := by
  simp only [numbers, List.mem_flatMap, Point.isFinite_iff]
  constructor
  · intro h p hp
    exact ⟨h _ ⟨p, hp, by simp⟩, h _ ⟨p, hp, by simp⟩⟩
  · rintro h x ⟨p, hp, hx⟩
    obtain rfl | rfl := List.mem_pair.1 hx
    · exact (h p hp).1
    · exact (h p hp).2

theorem Entity.isFinite_numbers_circle {center : Point Float} {radius : Float} :
    (∀ x ∈ (Entity.circle center radius).numbers, x.isFinite = true) ↔
      center.isFinite = true ∧ radius.isFinite = true := by
  simp [numbers, Point.isFinite_iff, and_assoc]

theorem Entity.isFinite_numbers_arc {center : Point Float} {radius startAngle endAngle : Float} :
    (∀ x ∈ (Entity.arc center radius startAngle endAngle).numbers, x.isFinite = true) ↔
      center.isFinite = true ∧ radius.isFinite = true ∧ startAngle.isFinite = true ∧
        endAngle.isFinite = true := by
  simp [numbers, Point.isFinite_iff, and_assoc]

namespace Placement

variable {tess : Tessellation} {entity : Entity Float}

/-- Finite numbers that pass the check lead to a point that is not finite. -/
def Overflows (tess : Tessellation) (entity : Entity Float) : Prop :=
  (∀ x ∈ entity.numbers, x.isFinite = true) ∧ PassesCheck entity ∧
    (shape tess entity).isFinite = false

/-- Finite points tell that the numbers are finite. -/
theorem isFinite_numbers_of_isDrawable (hopen : ∀ vertices, entity ≠ .polyline vertices true)
    (h : IsDrawable tess entity) : ∀ x ∈ entity.numbers, x.isFinite = true := by
  have hshape := h.isFinite
  cases entity with
  | polyline vertices closed =>
    cases closed with
    | true => exact absurd rfl (hopen vertices)
    | false => exact Entity.isFinite_numbers_polyline.2 (List.all_eq_true.1 hshape)
  | circle center radius =>
    exact Entity.isFinite_numbers_circle.2 (Tessellation.isFinite_of_circle hshape)
  | arc center radius startAngle endAngle =>
    exact Entity.isFinite_numbers_arc.2 (Tessellation.isFinite_of_arc hshape)
  | line | ellipse | spline | insert => exact List.forall_mem_nil _

theorem isDrawable_iff (hopen : ∀ vertices, entity ≠ .polyline vertices true)
    (hentity : entity.insertion? = none) (bounded : ¬Overflows tess entity) :
    IsDrawable tess entity ↔ (∀ x ∈ entity.numbers, x.isFinite = true) ∧ PassesCheck entity := by
  constructor
  · intro h
    exact ⟨isFinite_numbers_of_isDrawable hopen h, h.passesCheck⟩
  · rintro ⟨hnumbers, hcheck⟩
    refine ⟨hentity, hcheck, ?_⟩
    by_contra hshape
    exact bounded ⟨hnumbers, hcheck, Bool.eq_false_iff.2 hshape⟩

theorem moved_identity (line : Polyline Float) : moved .identity line = line :=
  if_pos (by decide +kernel)

theorem drawn_eq_getD (attempt : Except (Failure Float) (List (Polyline Float))) :
    drawn attempt = attempt.toOption.getD [] := by
  cases attempt <;> rfl

/-- Where nothing is moved, an entity is drawn as its shape or not at all. -/
theorem toOption_place_identity (drawing : Drawing Float) (room : Nat)
    (hentity : entity.insertion? = none) :
    (place tess drawing room .identity entity).toOption =
      if IsDrawable tess entity then some [shape tess entity] else none := by
  rw [place_of_insertion?_eq_none tess drawing hentity]
  by_cases hdraw : IsDrawable tess entity
  · rw [finiteOutline_of_isDrawable tess hdraw, if_pos hdraw]
    show some [moved .identity (shape tess entity)] = _
    rw [moved_identity]
  · obtain ⟨failure, hfailure⟩ := exists_finiteOutline_eq_error tess hentity hdraw
    rw [hfailure, if_neg hdraw]
    rfl

end Placement

namespace Import.Record

theorem bind_guard {α β : Type} {c : Prop} [Decidable c] (a : α) (f : α → Option β) :
    (if c then some a else none).bind f = if c then f a else none := by
  split <;> rfl

theorem map_guard {α β : Type} {c : Prop} [Decidable c] (a : α) (f : α → β) :
    (if c then some a else none).map f = if c then some (f a) else none := by
  split <;> rfl

open Placement (PassesCheck Overflows shape)

/-- The value is a number, or a string with a numeral, and stands for the double. -/
inductive Denotes : Json.Value → Float → Prop where
  | number {lexeme : List Char} {value : Json.NumberValue}
    (read : Json.Lexeme.value? lexeme = some value) :
    Denotes (.number lexeme) value.toFloat
  | string {text : String} {x : Float} (read : Number.float? (Text.trim text.toList) = some x) :
    Denotes (.string (some text)) x

/-- The member of the name stands for the double. -/
def HasField (record : Json.Value) (name : String) (x : Float) : Prop :=
  ∃ value, record.member? name = some value ∧ Denotes value x

/-- The first two items of the array stand for the coordinates. -/
def DenotesPoint (item : Json.Value) (p : Point Float) : Prop :=
  ∃ x y others, item = .array (x :: y :: others) ∧ Denotes x p.x ∧ Denotes y p.y

/-- The record is of the kind, in any case of its letters. -/
def HasKind (record : Json.Value) (kind : String) : Prop :=
  ∃ text, record.member? "type" = some (.string (some text)) ∧
    String.ofList (text.toList.map Char.toLower) = kind

/-- The entity and the record are of one kind and give the same numbers, finite or not. -/
inductive SameShape : Entity Float → Json.Value → Prop where
  | polyline {vertices : List (Point Float)} {record : Json.Value} {items : List Json.Value}
    (kind : HasKind record "polyline") (points : record.member? "points" = some (.array items))
    (each : List.Forall₂ DenotesPoint items vertices) : SameShape (.polyline vertices false) record
  | circle {center : Point Float} {radius : Float} {record : Json.Value}
    (kind : HasKind record "circle") (x : HasField record "cx" center.x)
    (y : HasField record "cy" center.y) (r : HasField record "r" radius) :
    SameShape (.circle center radius) record
  | arc {center : Point Float} {radius startAngle endAngle : Float} {record : Json.Value}
    (kind : HasKind record "arc") (x : HasField record "cx" center.x)
    (y : HasField record "cy" center.y) (r : HasField record "r" radius)
    (start : HasField record "start" startAngle) (finish : HasField record "end" endAngle) :
    SameShape (.arc center radius startAngle endAngle) record

theorem Denotes.number? {value : Json.Value} {x : Float} (h : Denotes value x) :
    number? value = if x.isFinite then some x else none := by
  cases h with
  | number read =>
    rw [Record.number?, read]
    exact Option.filter_some
  | string read =>
    rw [Record.number?, read]
    exact Option.filter_some

theorem HasField.field? {record : Json.Value} {name : String} {x : Float}
    (h : HasField record name x) :
    field? record name = if x.isFinite then some x else none := by
  obtain ⟨value, hvalue, hx⟩ := h
  rw [Record.field?, hvalue, Option.bind_some, hx.number?]

theorem DenotesPoint.point? {item : Json.Value} {p : Point Float} (h : DenotesPoint item p) :
    point? item = if p.isFinite then some p else none := by
  obtain ⟨x, y, others, rfl, hx, hy⟩ := h
  rw [Record.point?, hx.number?, hy.number?]
  show _ = if (p.x.isFinite && p.y.isFinite) = true then _ else _
  cases p.x.isFinite with
  | false => rfl
  | true =>
    cases p.y.isFinite with
    | false => rfl
    | true => rfl

theorem mapM_point? {items : List Json.Value} {vertices : List (Point Float)}
    (h : List.Forall₂ DenotesPoint items vertices) :
    items.mapM point? = if ∀ p ∈ vertices, p.isFinite = true then some vertices else none := by
  induction h with
  | nil => rfl
  | @cons item p items vertices hp _ ih =>
    rw [List.mapM_cons, hp.point?, ih]
    by_cases hfinite : p.isFinite = true
    · by_cases hrest : ∀ q ∈ vertices, q.isFinite = true
      · have hall : ∀ q ∈ p :: vertices, q.isFinite = true :=
          List.forall_mem_cons.2 ⟨hfinite, hrest⟩
        rw [if_pos hfinite, if_pos hrest, if_pos hall]
        rfl
      · have hnone : ¬∀ q ∈ p :: vertices, q.isFinite = true :=
          fun h => hrest (List.forall_mem_cons.1 h).2
        rw [if_pos hfinite, if_neg hrest, if_neg hnone]
        rfl
    · have hnone : ¬∀ q ∈ p :: vertices, q.isFinite = true :=
        fun h => hfinite (List.forall_mem_cons.1 h).1
      rw [if_neg hfinite, if_neg hnone]
      rfl

theorem center?_of_hasField {record : Json.Value} {center : Point Float}
    (x : HasField record "cx" center.x) (y : HasField record "cy" center.y) :
    center? record = if center.isFinite then some center else none := by
  rw [center?, x.field?, y.field?]
  show _ = if (center.x.isFinite && center.y.isFinite) = true then _ else _
  cases center.x.isFinite with
  | false => rfl
  | true =>
    cases center.y.isFinite with
    | false => rfl
    | true => rfl

theorem radius?_of_hasField {record : Json.Value} {radius : Float}
    (r : HasField record "r" radius) :
    radius? record = if radius.isFinite = true ∧ 0 < radius then some radius else none := by
  rw [radius?, r.field?]
  by_cases hfinite : radius.isFinite = true
  · rw [if_pos hfinite, Option.filter_some]
    by_cases hpos : 0 < radius
    · rw [if_pos (decide_eq_true hpos), if_pos ⟨hfinite, hpos⟩]
    · rw [if_neg (by simpa using hpos), if_neg fun h => hpos h.2]
  · rw [if_neg hfinite, if_neg fun h => hfinite h.1]
    rfl

section Kinds

variable {tess : Tessellation} {record : Json.Value}

theorem polyline?_of_polyline (h : HasKind record "polyline") {items : List Json.Value}
    (hitems : record.member? "points" = some (.array items)) :
    polyline? tess record = (items.mapM point?).map Polyline.mk := by
  obtain ⟨text, htext, hkind⟩ := h
  unfold polyline?
  rw [htext, hitems]
  simp only [Option.bind_eq_bind, Option.bind_some, Json.Value.text?, Json.Value.items?, hkind]
  cases items.mapM point? <;> rfl

theorem polyline?_of_circle (h : HasKind record "circle") :
    polyline? tess record = (center? record).bind fun center =>
      (radius? record).map (tess.circle center) := by
  obtain ⟨text, htext, hkind⟩ := h
  unfold polyline?
  rw [htext]
  simp only [Option.bind_eq_bind, Option.bind_some, Json.Value.text?, hkind]
  cases center? record <;> cases radius? record <;> rfl

theorem polyline?_of_arc (h : HasKind record "arc") :
    polyline? tess record = (center? record).bind fun center => (radius? record).bind fun radius =>
      (field? record "start").bind fun startAngle =>
          (field? record "end").map (tess.arc center radius startAngle) := by
  obtain ⟨text, htext, hkind⟩ := h
  unfold polyline?
  rw [htext]
  simp only [Option.bind_eq_bind, Option.bind_some, Json.Value.text?, hkind]
  cases center? record <;> cases radius? record <;> cases field? record "start" <;>
    cases field? record "end" <;> rfl

end Kinds

/-- A record is drawn as the shape if its numbers are finite and its radius is positive. -/
theorem SameShape.polyline? {tess : Tessellation} {entity : Entity Float} {record : Json.Value}
    (h : SameShape entity record) :
    polyline? tess record =
      if (∀ x ∈ entity.numbers, x.isFinite = true) ∧ PassesCheck entity
        then some (shape tess entity) else none := by
  cases h with
  | @polyline vertices record items kind points each =>
    rw [polyline?_of_polyline kind points, mapM_point? each]
    simp only [Entity.isFinite_numbers_polyline, PassesCheck, and_true]
    by_cases hall : ∀ p ∈ vertices, p.isFinite = true
    · rw [if_pos hall, if_pos hall]
      rfl
    · rw [if_neg hall, if_neg hall]
      rfl
  | @circle center radius record kind x y r =>
    rw [polyline?_of_circle kind, center?_of_hasField x y, radius?_of_hasField r]
    simp only [bind_guard, map_guard, ← ite_and]
    refine if_congr ?_ rfl rfl
    rw [Entity.isFinite_numbers_circle]
    show _ ↔ _ ∧ (radius.isFinite = true ∧ 0 < radius)
    tauto
  | @arc center radius startAngle endAngle record kind x y r start finish =>
    rw [polyline?_of_arc kind, center?_of_hasField x y, radius?_of_hasField r, start.field?,
      finish.field?]
    simp only [bind_guard, map_guard, ← ite_and]
    refine if_congr ?_ rfl rfl
    rw [Entity.isFinite_numbers_arc]
    show _ ↔ _ ∧ (radius.isFinite = true ∧ 0 < radius)
    tauto

/-- An entity that is not moved and a record of the same shape are drawn alike or both left out. -/
theorem SameShape.toOption_place {tess : Tessellation} {entity : Entity Float} {record : Json.Value}
    (h : SameShape entity record) (bounded : ¬Overflows tess entity) (drawing : Drawing Float)
    (room : Nat) :
    (Placement.place tess drawing room .identity entity).toOption =
      (Record.polyline? tess record).map fun line => [line] := by
  have hopen : ∀ vertices, entity ≠ .polyline vertices true := by
    rintro vertices rfl
    nomatch h
  have hentity : entity.insertion? = none := by
    cases h <;> rfl
  rw [Placement.toOption_place_identity drawing room hentity, h.polyline?, map_guard]
  exact if_congr (Placement.isDrawable_iff hopen hentity bounded) rfl rfl

/-- Drawings of the same shapes have the same linework. -/
theorem linework_eq_of_sameShape {tess : Tessellation} {es : List (Entity Float)}
    {records : List Json.Value} (h : List.Forall₂ SameShape es records)
    (bounded : ∀ e ∈ es, ¬Overflows tess e) :
    Placement.linework tess (.ofEntities es) = linework tess records := by
  have hlines : ∀ drawing : Drawing Float,
      (es.flatMap fun e => Placement.drawn
        (Placement.place tess drawing Placement.maxDepth .identity e)) =
        records.filterMap (polyline? tess) := by
    intro drawing
    induction h with
    | nil => rfl
    | @cons e record es records hfirst _ ih =>
      have hplace := hfirst.toOption_place (bounded e List.mem_cons_self) drawing Placement.maxDepth
      have hrest := ih fun e he => bounded e (List.mem_cons_of_mem _ he)
      rw [List.flatMap_cons, List.filterMap_cons, hrest, Placement.drawn_eq_getD, hplace]
      cases polyline? tess record with
      | none => rfl
      | some line => rfl
  exact congrArg Linework.ofList (hlines _)

/-- The text is that of the records. -/
structure IsTextOf (records : List Json.Value) (text : String) : Prop where
  notBlank : (Text.trim text.toList).isEmpty = false
  parse : Json.Reader.parse? text = some (.array records)
  sound : (Json.Value.array records).isSound Json.Value.maxDepth = true

theorem IsTextOf.read {records : List Json.Value} {text : String} (h : IsTextOf records text)
    (tess : Tessellation) :
    read tess text = .ok (linework tess records) := by
  rw [Record.read, h.notBlank, h.parse, if_neg Bool.false_ne_true]
  show (if (!(Json.Value.array records).isSound Json.Value.maxDepth) = true then _ else _) = _
  rw [h.sound]
  rfl

end Import.Record

namespace Import

open Placement (Overflows)
open Record (SameShape IsTextOf)

theorem Reader.read_ofBytes {tier : Tier}
    {decode : List UInt8 → Except ImportError (Linework Float)} {path : String}
    {artifacts : Artifacts} {w : Files.Workspace} {bytes : List UInt8}
    (hread : w.read path = .ok bytes) :
    (Reader.ofBytes tier decode).read path artifacts w = ⟨decode bytes, artifacts, w⟩ := by
  simp only [Reader.ofBytes, hread]

theorem strictReader_result {tess : Tessellation} {path : String} {artifacts : Artifacts}
    {w : Files.Workspace} {bytes : List UInt8} {drawing : Drawing Float}
    (hread : w.read path = .ok bytes) (hdrawing : Dxf.drawing? bytes = some drawing) :
    ((strictReader tess).read path artifacts w).result = .ok (Placement.linework tess drawing) := by
  have hstrict : strictLinework tess bytes = .ok (Placement.linework tess drawing) := by
    rw [strictLinework, hdrawing]
  rw [strictReader, Reader.read_ofBytes hread]
  exact hstrict

theorem scanReader_result {tess : Tessellation} {path : String} {artifacts : Artifacts}
    {w : Files.Workspace} {bytes : List UInt8} (hread : w.read path = .ok bytes) :
    ((scanReader tess).read path artifacts w).result =
      .ok (Placement.linework tess
        (Dxf.Scan.drawing (String.ofList (Text.Utf8.decodeTolerant bytes)))) := by
  rw [scanReader, Reader.read_ofBytes hread]

theorem Normalizer.readRecords_of_isTextOf {n : Normalizer} {path text : String}
    {w : Files.Workspace} {records : List Json.Value} (hread : w.readText path = .ok text)
    (h : IsTextOf records text) :
    n.readRecords w path = .ok (Record.linework (.ofNat n.segments) records) := by
  simp only [readRecords, hread, h.read]

/-- A shape is drawn alike from an entity and from a record, or left out of both, whatever its
numbers are, as long as finite numbers do not overflow. The standard tiers tessellate with one
number of segments, at least one, and thus draw the same shapes alike, whichever of them reads the
drawing. -/
theorem standard_tiers_agree :
    (∀ (tess : Tessellation) (drawing : Drawing Float) (room : Nat) (entity : Entity Float)
      (record : Json.Value),
      SameShape entity record → ¬Overflows tess entity →
        (Placement.place tess drawing room .identity entity).toOption =
          (Record.polyline? tess record).map fun line => [line]) ∧
    ∀ (programs : Files.Programs) (options : Options), ∃ (tess : Tessellation) (n : Normalizer),
      tess.segments = max 1 options.segments ∧ n =
        { options.normalizer with segments := max 1 options.segments } ∧
      (Importer.standard programs options).tiers =
        [strictReader tess, normalizerReader programs n, scanReader tess] ∧
      ∀ (es : List (Entity Float)) (records : List Json.Value),
        List.Forall₂ SameShape es records → (∀ e ∈ es, ¬Overflows tess e) →
        ∃ work : Linework Float,
          (∀ path artifacts w bytes, Files.Workspace.read w path = .ok bytes →
            Dxf.drawing? bytes = some (.ofEntities es) →
            ((strictReader tess).read path artifacts w).result = .ok work) ∧
          (∀ path w text, Files.Workspace.readText w path = .ok text → IsTextOf records text →
            n.readRecords w path = .ok work) ∧
          ∀ path artifacts w bytes, Files.Workspace.read w path = .ok bytes →
            Dxf.Scan.drawing (String.ofList (Text.Utf8.decodeTolerant bytes)) = .ofEntities es →
            ((scanReader tess).read path artifacts w).result = .ok work := by
  refine ⟨?_, ?_⟩
  · intro tess drawing room entity record hshape bounded
    exact hshape.toOption_place bounded drawing room
  · intro programs options
    let tess := Tessellation.ofNat options.segments
    let n : Normalizer := { options.normalizer with segments := tess.segments }
    have hsegments : tess.segments = max 1 options.segments := Nat.max_comm _ _
    have htess : Tessellation.ofNat n.segments = tess := tess.ofNat_segments
    refine ⟨tess, n, hsegments, ?_, rfl, ?_⟩
    · show { options.normalizer with segments := tess.segments } = _
      rw [hsegments]
    · intro es records hshapes bounded
      have hwork := Record.linework_eq_of_sameShape hshapes bounded
      refine ⟨Record.linework tess records, ?_, ?_, ?_⟩
      · intro path artifacts w bytes hread hdrawing
        rw [strictReader_result hread hdrawing, hwork]
      · intro path w text hread htext
        rw [Normalizer.readRecords_of_isTextOf hread htext, htess]
      · intro path artifacts w bytes hread hdrawing
        rw [scanReader_result hread, hdrawing, hwork]

/-- Without segments asked for, a polyline with a numeral in a string and a circle whose radius is
infinite. -/
theorem standard_tiers_agree_infiniteRadius :
    let es : List (Entity Float) := [.polyline [⟨1, 2⟩] false, .circle ⟨0, 0⟩ (1 / 0)]
    let line : Json.Value := .object [(some "type", .string (some "polyline")),
      (some "points", .array [.array [.number ['1'], .string (some " 2 ")]])]
    let circle : Json.Value :=
      .object [(some "type", .string (some "Circle")), (some "cx", .number ['0']),
        (some "cy", .number ['0']), (some "r", .string (some "inf"))]
    let programs : Files.Programs :=
      ⟨fun _ _ => false, fun w _ _ _ => (⟨.status 0, false, none, none⟩, w)⟩
    let options : Options := ⟨0, .standard ⟨[], [], [], none, 0, []⟩⟩
    List.Forall₂ SameShape es [line, circle] ∧ (∀ tess, ∀ e ∈ es, ¬Overflows tess e) ∧
      (Placement.place (.ofNat 4) (.ofEntities es) 0 .identity (.circle ⟨0, 0⟩ (1 / 0))).toOption =
        (Record.polyline? (.ofNat 4) circle).map (fun line => [line]) ∧
      options.normalizer.segments = 48 ∧ ∃ (tess : Tessellation) (n : Normalizer)
        (work : Linework Float), tess.segments = 1 ∧ n.segments = 1 ∧
        (Importer.standard programs options).tiers =
          [strictReader tess, normalizerReader programs n, scanReader tess] ∧
        ∀ path w text, Files.Workspace.readText w path = .ok text → IsTextOf [line, circle] text →
          n.readRecords w path = .ok work := by
  intro es line circle programs options
  have hline : SameShape (.polyline [⟨1, 2⟩] false) line := by
    have hone : (Json.NumberValue.integer 1).toFloat = 1 := by decide +kernel
    have hx : Record.Denotes (.number ['1']) 1 := hone ▸ .number rfl
    have hy : Record.Denotes (.string (some " 2 ")) 2 := .string (by decide +kernel)
    exact .polyline ⟨"polyline", rfl, by decide⟩ rfl (.cons ⟨_, _, [], rfl, hx, hy⟩ .nil)
  have hcircle : SameShape (.circle ⟨0, 0⟩ (1 / 0)) circle := by
    have hnull : (Json.NumberValue.integer 0).toFloat = 0 := by decide +kernel
    have hzero : Record.Denotes (.number ['0']) 0 := hnull ▸ .number rfl
    have hradius : Record.Denotes (.string (some "inf")) (1 / 0) := .string (by decide +kernel)
    exact .circle ⟨"Circle", rfl, by decide⟩ ⟨_, rfl, hzero⟩ ⟨_, rfl, hzero⟩ ⟨_, rfl, hradius⟩
  have hshapes : List.Forall₂ SameShape es [line, circle] := .cons hline (.cons hcircle .nil)
  have bounded : ∀ tess, ∀ e ∈ es, ¬Overflows tess e := by
    intro tess e he
    rcases List.mem_pair.1 he with rfl | rfl
    · rintro ⟨-, -, hshape⟩
      exact absurd (show (⟨[⟨1, 2⟩]⟩ : Polyline Float).isFinite = false from hshape)
        (by decide +kernel)
    · rintro ⟨hnumbers, -⟩
      exact absurd (hnumbers (1 / 0) (by simp [Entity.numbers])) (by decide +kernel)
  obtain ⟨single, standard⟩ := standard_tiers_agree
  obtain ⟨tess, n, hsegments, rfl, htiers, hdrawings⟩ := standard programs options
  obtain ⟨work, -, hrecords, -⟩ := hdrawings es [line, circle] hshapes (bounded tess)
  refine ⟨hshapes, bounded, ?_, rfl, tess, _, work, hsegments, rfl, htiers, hrecords⟩
  exact single _ _ _ _ _ hcircle (bounded _ _ (List.mem_cons_of_mem _ List.mem_cons_self))

end Import

end Turnery
