import Mathlib
import Turnery.Proofs.Fault
import Turnery.Proofs.Import.SameShape
import Turnery.Proofs.Text.Trim

/-!
# Records one by one

A normalised drawing is read or refused as a whole text, but never for a record in it:
`given_oneByOne` says that reading fails exactly if the text is blank, is not JSON or is no array,
and that otherwise every record gives what it gives on its own, one polyline or none, whatever
stands beside it.
-/

namespace Turnery.Import.Record

/-- The text is JSON, and this is its value. -/
structure IsJson (text : String) (value : Json.Value) : Prop where
  parse : Json.Reader.parse? text = some value
  sound : value.isSound Json.Value.maxDepth = true

/-- The text is blank, is not JSON, or its value is no array. -/
def IsUnreadable (text : String) : Prop :=
  (∀ c ∈ text.toList, Text.isBlank c = true) ∨ (∀ value, ¬IsJson text value) ∨
    ∃ value, IsJson text value ∧ ∀ records, value ≠ .array records

/-- The polylines that a text gives, unless it is refused. -/
def given (tess : Tessellation) (text : String) : Option (List (Polyline Float)) :=
  (read tess text).toOption.map Linework.polylines

/-- The polylines that a record gives on its own. -/
def own (tess : Tessellation) (record : Json.Value) : List (Polyline Float) :=
  (linework tess [record]).polylines

theorem IsJson.unique {text : String} {value other : Json.Value} (h : IsJson text value)
    (hother : IsJson text other) :
    value = other :=
  Option.some.inj (h.parse.symm.trans hother.parse)

/-- A text of records is readable. -/
theorem IsTextOf.not_isUnreadable {records : List Json.Value} {text : String}
    (h : IsTextOf records text) :
    ¬IsUnreadable text := by
  have hjson : IsJson text (.array records) := ⟨h.parse, h.sound⟩
  rintro (hblank | hnone | ⟨value, hvalue, hother⟩)
  · have hnotBlank := h.notBlank
    rw [Text.trim_eq_nil_iff.2 hblank] at hnotBlank
    cases hnotBlank
  · exact hnone _ hjson
  · exact hother records (hvalue.unique hjson)

/-- Every text is a text of records or is unreadable, and unreadable texts are refused. -/
theorem exists_isTextOf_or_error (tess : Tessellation) (text : String) :
    (∃ records, IsTextOf records text) ∨ IsUnreadable text ∧ ∃ failure,
      read tess text = .error failure := by
  unfold read
  split
  · rename_i hempty
    exact .inr ⟨.inl (Text.trim_eq_nil_iff.1 (List.isEmpty_iff.1 hempty)), _, rfl⟩
  · rename_i hempty
    split
    · rename_i hparse
      refine .inr ⟨.inr (.inl ?_), _, rfl⟩
      intro value hvalue
      cases hparse.symm.trans hvalue.parse
    · rename_i value hparse
      split
      · rename_i hunsound
        refine .inr ⟨.inr (.inl ?_), _, rfl⟩
        intro other hother
        obtain rfl := Option.some.inj (hparse.symm.trans hother.parse)
        rw [hother.sound] at hunsound
        cases hunsound
      · rename_i hsound
        have hjson : IsJson text value := ⟨hparse, by simpa using hsound⟩
        split
        · rename_i records
          exact .inl ⟨records, Bool.eq_false_iff.2 hempty, hjson.parse, hjson.sound⟩
        · rename_i hother
          refine .inr ⟨.inr (.inr ⟨value, hjson, ?_⟩), _, rfl⟩
          intro records heq
          exact hother records heq

theorem isUnreadable_iff_error (tess : Tessellation) (text : String) :
    IsUnreadable text ↔ ∃ failure, read tess text = .error failure := by
  obtain ⟨records, h⟩ | ⟨hunreadable, hfailure⟩ := exists_isTextOf_or_error tess text
  · refine iff_of_false h.not_isUnreadable ?_
    rintro ⟨failure, hfailure⟩
    rw [h.read] at hfailure
    cases hfailure
  · exact iff_of_true hunreadable hfailure

theorem not_isUnreadable_iff (text : String) :
    ¬IsUnreadable text ↔ ∃ records, IsTextOf records text := by
  constructor
  · intro hreadable
    obtain h | ⟨hunreadable, -⟩ := exists_isTextOf_or_error (.ofNat 1) text
    · exact h
    · exact absurd hunreadable hreadable
  · rintro ⟨records, h⟩
    exact h.not_isUnreadable

theorem given_eq_none_iff (tess : Tessellation) (text : String) :
    given tess text = none ↔ IsUnreadable text := by
  rw [isUnreadable_iff_error tess, given, Option.map_eq_none_iff]
  cases read tess text with
  | error failure => exact iff_of_true rfl ⟨failure, rfl⟩
  | ok work => exact iff_of_false nofun (by rintro ⟨failure, hfailure⟩; cases hfailure)

/-- The records that the external normaliser has written are a malformed artifact or they are
read. -/
theorem readRecords_iff {n : Normalizer} {w : Files.Workspace} {path text : String}
    (h : Files.Workspace.readText w path = .ok text) :
    ((∃ reason, n.readRecords w path = .error (.malformedArtifact reason)) ↔ IsUnreadable text) ∧
      ((∃ work, n.readRecords w path = .ok work) ↔ ¬IsUnreadable text) := by
  rw [isUnreadable_iff_error (.ofNat n.segments)]
  simp only [Normalizer.readRecords, h]
  cases read (.ofNat n.segments) text with
  | error failure =>
    constructor
    · exact iff_of_true ⟨_, rfl⟩ ⟨failure, rfl⟩
    · apply iff_of_false
      · rintro ⟨work, ⟨⟩⟩
      · exact fun hnone => hnone ⟨failure, rfl⟩
  | ok work =>
    have hnone : ¬∃ other, (.ok work : Except Failure (Linework Float)) = .error other := by
      rintro ⟨other, ⟨⟩⟩
    constructor
    · apply iff_of_false
      · rintro ⟨reason, ⟨⟩⟩
      · exact hnone
    · exact iff_of_true ⟨work, rfl⟩ hnone

theorem polylines_linework (tess : Tessellation) (records : List Json.Value) :
    (linework tess records).polylines = records.flatMap (own tess) := by
  induction records with
  | nil => rfl
  | cons record rest ih =>
    rw [List.flatMap_cons, ← ih, own, linework, linework, linework, Linework.polylines_ofList,
      Linework.polylines_ofList, Linework.polylines_ofList, ← List.filter_append,
      ← List.filterMap_append]
    rfl

theorem own_eq_filter (tess : Tessellation) (record : Json.Value) :
    own tess record = (polyline? tess record).toList.filter fun line => !line.isEmpty := by
  rw [own, linework, Linework.polylines_ofList, List.filterMap_cons]
  cases polyline? tess record <;> rfl

/-- A record gives one polyline at most. -/
theorem length_own_le (tess : Tessellation) (record : Json.Value) :
    (own tess record).length ≤ 1 := by
  rw [own_eq_filter]
  exact (List.length_filter_le _ _).trans (by cases polyline? tess record <;> simp)

theorem IsTextOf.given {records : List Json.Value} {text : String} (h : IsTextOf records text)
    (tess : Tessellation) :
    given tess text = some (records.flatMap (own tess)) := by
  rw [Record.given, h.read, ← polylines_linework]
  rfl

/-- The item is an array that begins with two numbers or numerals in strings, both finite. -/
def IsCoordinates (item : Json.Value) : Prop :=
  ∃ x y others a b, item = .array (x :: y :: others) ∧ Denotes x a ∧ a.isFinite = true ∧
    Denotes y b ∧ b.isFinite = true

theorem denotes_of_number? {value : Json.Value} {x : Float} (h : number? value = some x) :
    Denotes value x ∧ x.isFinite = true := by
  obtain ⟨hvalue, hfinite⟩ := Option.filter_eq_some_iff.1 h
  refine ⟨?_, hfinite⟩
  split at hvalue
  · obtain ⟨number, hnumber, rfl⟩ := Option.map_eq_some_iff.1 hvalue
    exact .number hnumber
  · exact .string hvalue
  · nomatch hvalue

theorem isCoordinates_of_point? {item : Json.Value} {p : Point Float} (h : point? item = some p) :
    IsCoordinates item := by
  unfold point? at h
  split at h
  · rename_i x y others
    obtain ⟨a, ha, h⟩ := Option.bind_eq_some_iff.1 h
    obtain ⟨b, hb, h⟩ := Option.bind_eq_some_iff.1 h
    obtain ⟨hx, hfinite⟩ := denotes_of_number? ha
    obtain ⟨hy, hfinite'⟩ := denotes_of_number? hb
    exact ⟨x, y, others, a, b, rfl, hx, hfinite, hy, hfinite'⟩
  · nomatch h

theorem exists_point?_of_isCoordinates {item : Json.Value} (h : IsCoordinates item) :
    ∃ p, point? item = some p := by
  obtain ⟨x, y, others, a, b, rfl, hx, ha, hy, hb⟩ := h
  refine ⟨⟨a, b⟩, ?_⟩
  rw [point?, hx.number?, hy.number?, if_pos ha, if_pos hb]
  rfl

theorem point?_eq_none_iff {item : Json.Value} : point? item = none ↔ ¬IsCoordinates item := by
  rw [Option.eq_none_iff_forall_ne_some]
  constructor
  · intro hnone h
    obtain ⟨p, hp⟩ := exists_point?_of_isCoordinates h
    exact hnone p hp
  · intro h p hp
    exact h (isCoordinates_of_point? hp)

/-- The items of a polyline are read exactly if each is a pair of coordinates. -/
theorem mapM_point?_eq_none_iff {items : List Json.Value} :
    items.mapM point? = none ↔ ∃ item ∈ items, ¬IsCoordinates item := by
  simp only [mapM_eq_none_iff, point?_eq_none_iff]

/-- A polyline is left out if it has no items, or if one of them is no pair of coordinates. -/
theorem own_eq_nil_iff {record : Json.Value} {items : List Json.Value}
    (kind : HasKind record "polyline") (points : record.member? "points" = some (.array items))
    (tess : Tessellation) :
    own tess record = [] ↔ items = [] ∨ ∃ item ∈ items, ¬IsCoordinates item := by
  rw [own_eq_filter, polyline?_of_polyline kind points, ← mapM_point?_eq_none_iff]
  cases hmap : items.mapM point? with
  | none => exact iff_of_true rfl (.inr rfl)
  | some vertices =>
    have hlength := (mapM_eq_some_iff.1 hmap).length_eq.symm
    cases items with
    | nil =>
      obtain rfl := List.length_eq_zero_iff.1 hlength
      exact iff_of_true rfl (.inl rfl)
    | cons item rest =>
      obtain ⟨p, others, rfl⟩ := List.exists_cons_of_length_eq_add_one hlength
      exact iff_of_false (List.cons_ne_nil _ _) (by simp)

/-- Reading a normalised drawing fails, as a malformed artifact, exactly if the text is blank, is
not JSON or is no array. Otherwise each record gives what it gives on its own, one polyline or none,
in order. So joined arrays give what they give one after the other, and a record that is changed or
taken away changes nothing but its own part. A polyline record with an item that is no pair of
coordinates gives nothing. -/
theorem given_oneByOne (tess : Tessellation) :
    (∀ text, given tess text = none ↔ IsUnreadable text) ∧
    (∀ (n : Normalizer) w path text, Files.Workspace.readText w path = .ok text →
      ((∃ reason, n.readRecords w path = .error (.malformedArtifact reason)) ↔ IsUnreadable text) ∧
      ((∃ work, n.readRecords w path = .ok work) ↔ ¬IsUnreadable text)) ∧
    (∀ text, ¬IsUnreadable text ↔ ∃ records, IsTextOf records text) ∧
    (∀ records text, IsTextOf records text → given tess text = some (records.flatMap (own tess))) ∧
    (∀ record, (own tess record).length ≤ 1 ∧ ∀ text,
      IsTextOf [record] text → given tess text = some (own tess record)) ∧
    (∀ front back first second both, IsTextOf front first → IsTextOf back second →
      IsTextOf (front ++ back) both →
      ∃ a b, given tess first = some a ∧ given tess second = some b ∧
        given tess both = some (a ++ b)) ∧
    (∀ front record other back whole changed less, IsTextOf (front ++ record :: back) whole →
      IsTextOf (front ++ other :: back) changed → IsTextOf (front ++ back) less →
      ∃ before behind, given tess whole = some (before ++ own tess record ++ behind) ∧
        given tess changed = some (before ++ own tess other ++ behind) ∧
          given tess less = some (before ++ behind)) ∧
    ∀ record items, HasKind record "polyline" → record.member? "points" = some (.array items) →
      (own tess record = [] ↔ items = [] ∨ ∃ item ∈ items, ¬IsCoordinates item) := by
  refine ⟨given_eq_none_iff tess, fun n w path text => readRecords_iff, not_isUnreadable_iff,
    fun records text h => h.given tess, ?_, ?_, ?_, ?_⟩
  · intro record
    refine ⟨length_own_le tess record, ?_⟩
    intro text h
    rw [h.given, List.flatMap_singleton]
  · intro front back first second both hfirst hsecond hboth
    refine ⟨_, _, hfirst.given tess, hsecond.given tess, ?_⟩
    rw [hboth.given, List.flatMap_append]
  · intro front record other back whole changed less hwhole hchanged hless
    refine ⟨front.flatMap (own tess), back.flatMap (own tess), ?_, ?_, ?_⟩
    · rw [hwhole.given, List.flatMap_append, List.flatMap_cons, List.append_assoc]
    · rw [hchanged.given, List.flatMap_append, List.flatMap_cons, List.append_assoc]
    · rw [hless.given, List.flatMap_append]
  · intro record items kind points
    exact own_eq_nil_iff kind points tess

set_option maxRecDepth 4000 in
/-- Of two polylines in an array the second has an infinite coordinate; what comes of the array is
what comes of the first. -/
theorem given_oneByOne_infinite :
    let items : List Json.Value := [.array [.string (some "inf"), .number ['1']]]
    let line : Json.Value := .object [(some "type", .string (some "Polyline")),
      (some "points", .array [.array [.number ['0'], .string (some " 1 "), .null]])]
    let infinite : Json.Value :=
      .object [(some "type", .string (some "polyline")), (some "points", .array items)]
    let whole := "[\x7b\"type\":\"Polyline\",\"points\":[[0,\" 1 \",null]]\x7d," ++
      "\x7b\"type\":\"polyline\",\"points\":[[\"inf\",1]]\x7d]"
    IsTextOf [line, infinite] whole ∧ own (.ofNat 4) infinite = [] ∧
      given (.ofNat 4) whole = some (own (.ofNat 4) line) ∧ given (.ofNat 4) " \n" = none := by
  intro items line infinite whole
  have hwhole : IsTextOf [line, infinite] whole := ⟨by decide, by cbv, by decide⟩
  have hinfinite : ¬IsCoordinates (.array [.string (some "inf"), .number ['1']]) := by
    rintro ⟨x, y, others, a, b, heq, hx, ha, -⟩
    obtain ⟨rfl, -⟩ := List.cons.inj (Json.Value.array.inj heq)
    have hnumber := hx.number?
    rw [if_pos ha] at hnumber
    have hnone : number? (.string (some "inf")) = none := by decide +kernel
    cases hnone.symm.trans hnumber
  obtain ⟨hrefused, -, -, hgiven, -, -, -, hpolyline⟩ := given_oneByOne (.ofNat 4)
  have hown : own (.ofNat 4) infinite = [] :=
    (hpolyline infinite items ⟨"polyline", rfl, by decide⟩ rfl).2
      (.inr ⟨_, List.mem_singleton_self _, hinfinite⟩)
  have hblank : ∀ c ∈ [' ', '\n'], Text.isBlank c = true := by
    rw [List.forall_mem_cons, List.forall_mem_singleton]
    decide
  refine ⟨hwhole, hown, ?_, (hrefused _).2 (.inl hblank)⟩
  rw [hgiven _ whole hwhole, List.flatMap_cons, List.flatMap_singleton, hown, List.append_nil]

end Turnery.Import.Record
