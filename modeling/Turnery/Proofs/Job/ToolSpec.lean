import Turnery.Job.ToolSpec
import Turnery.Proofs.Number.Numeral
import Turnery.Proofs.Number.Reread

/-!
# Which texts specify a tool

`Specifies` says field by field what a specification says about its tool, and `IsSpec` when a text
is a specification at all. Reading agrees with both, so that a tool written in full is read back:
`parse_specifies`.
-/

namespace Turnery.ToolSpec

open Number (Counts Denotes)
open Text (trim isBlank IsTrimmed)

/-- The texts between the colons. -/
def parts (spec : String) : List (List Char) :=
  spec.toList.splitOn ':'

/-- The name in a field: the text without the blanks around it, or one made from the number if there
is none. -/
inductive IsName (number : Nat) : Option (List Char) → String → Prop where
  | missing : IsName number none ("Tool " ++ Number.natText number)
  | blank {field : List Char} (blanks : ∀ c ∈ field, isBlank c = true) :
    IsName number (some field) ("Tool " ++ Number.natText number)
  | given {field : List Char} (inked : ¬∀ c ∈ field, isBlank c = true) :
    IsName number (some field) (String.ofList (trim field))

/-- The quantity in a field: a numeral with or without blanks around it, or zero if there is
none. -/
inductive IsQuantity : Option (List Char) → Float → Prop where
  | missing : IsQuantity none 0
  | blank {field : List Char} (blanks : ∀ c ∈ field, isBlank c = true) : IsQuantity (some field) 0
  | given {field : List Char} {x : Float} (numeral : Denotes (trim field) x) :
    IsQuantity (some field) x

/-- The text specifies the tool. -/
structure Specifies (spec : String) (tool : Tool) : Prop where
  length : (parts spec).length ≤ 5
  number : ∃ field ∈ (parts spec)[0]?, Counts maxNumber (trim field) tool.number
  name : IsName tool.number (parts spec)[1]? tool.name
  diameter : IsQuantity (parts spec)[2]? tool.diameter
  feed : IsQuantity (parts spec)[3]? tool.feed
  spindle : IsQuantity (parts spec)[4]? tool.spindle

/-- The text has one to five fields, the first is a tool number and those behind the second are
blank or numerals. -/
structure IsSpec (spec : String) : Prop where
  length : 1 ≤ (parts spec).length ∧ (parts spec).length ≤ 5
  number : ∃ field ∈ (parts spec)[0]?, ∃ n, Counts maxNumber (trim field) n
  quantities : ∀ field ∈ (parts spec).drop 2, (∀ c ∈ field, isBlank c = true) ∨ ∃ x,
    Denotes (trim field) x

theorem readNumber_eq_ok_iff {text : List Char} {n : Nat} :
    readNumber text = .ok n ↔ Counts maxNumber text n := by
  rw [← Number.readNat_eq_ok_iff, readNumber]
  cases text with
  | nil =>
    constructor
    · intro h
      nomatch h
    · intro h
      nomatch h
  | cons c rest =>
    rw [if_neg (by simp)]
    cases Number.readNat maxNumber (c :: rest) with
    | ok m => simp
    | error cause => simp

theorem readQuantity_eq_ok_iff {quantity : Quantity} {text : List Char} {x : Float} :
    readQuantity quantity text = .ok x ↔ (text = [] ∧ x = 0) ∨ Denotes text x := by
  rw [← Number.float?_eq_some_iff, readQuantity]
  cases text with
  | nil =>
    have hnone : Number.float? [] = none := rfl
    simp [hnone, eq_comm]
  | cons c rest =>
    rw [if_neg (by simp)]
    cases Number.float? (c :: rest) with
    | some y => simp
    | none => simp

theorem isName_iff {number : Nat} {field : Option (List Char)} {name : String} :
    IsName number field name ↔ name = toolName number ((field.map trim).getD []) := by
  have hstandard : toolName number [] = "Tool " ++ Number.natText number := rfl
  have hgiven : ∀ {text : List Char}, text ≠ [] → toolName number text = String.ofList text := by
    intro text hne
    rw [toolName, if_neg (by simpa using hne)]
  constructor
  · intro h
    cases h with
    | missing => exact hstandard.symm
    | blank blanks =>
      have hnil := Text.trim_eq_nil_iff.2 blanks
      rw [Option.map_some, Option.getD_some, hnil, hstandard]
    | given inked =>
      have hne := mt Text.trim_eq_nil_iff.1 inked
      rw [Option.map_some, Option.getD_some, hgiven hne]
  · rintro rfl
    cases field with
    | none => exact .missing
    | some field =>
      rw [Option.map_some, Option.getD_some]
      by_cases hnil : trim field = []
      · rw [hnil, hstandard]
        exact .blank (Text.trim_eq_nil_iff.1 hnil)
      · rw [hgiven hnil]
        exact .given (mt Text.trim_eq_nil_iff.2 hnil)

theorem isQuantity_iff (quantity : Quantity) {field : Option (List Char)} {x : Float} :
    IsQuantity field x ↔ readQuantity quantity ((field.map trim).getD []) = .ok x := by
  rw [readQuantity_eq_ok_iff]
  constructor
  · intro h
    cases h with
    | missing => exact .inl ⟨rfl, rfl⟩
    | blank blanks => exact .inl ⟨Text.trim_eq_nil_iff.2 blanks, rfl⟩
    | given numeral => exact .inr numeral
  · intro h
    cases field with
    | none =>
      obtain ⟨-, rfl⟩ | hnumeral := h
      · exact .missing
      · exact absurd rfl hnumeral.ne_nil
    | some field =>
      obtain ⟨hnil, rfl⟩ | hnumeral := h
      · exact .blank (Text.trim_eq_nil_iff.1 hnil)
      · exact .given hnumeral

theorem ofFields_eq_ok_iff {fields : List (List Char)} {tool : Tool} :
    ofFields fields = .ok tool ↔
      readNumber (fields.getD 0 []) = .ok tool.number ∧
      readQuantity .diameter (fields.getD 2 []) = .ok tool.diameter ∧
      readQuantity .feed (fields.getD 3 []) = .ok tool.feed ∧
      readQuantity .spindle (fields.getD 4 []) = .ok tool.spindle ∧
      fields.length ≤ 5 ∧ tool.name = toolName tool.number (fields.getD 1 []) := by
  obtain ⟨number, name, diameter, feed, spindle⟩ := tool
  rw [ofFields]
  cases readNumber (fields.getD 0 []) with
  | error cause => simp [bind, Except.bind]
  | ok n =>
    cases readQuantity .diameter (fields.getD 2 []) with
    | error cause => simp [bind, Except.bind]
    | ok d =>
      cases readQuantity .feed (fields.getD 3 []) with
      | error cause => simp [bind, Except.bind]
      | ok f =>
        cases readQuantity .spindle (fields.getD 4 []) with
        | error cause => simp [bind, Except.bind]
        | ok s =>
          by_cases hlength : fields.length ≤ 5
          · simp only [bind, Except.bind, if_pos hlength, Except.ok.injEq, Tool.mk.injEq]
            constructor
            · rintro ⟨rfl, rfl, rfl, rfl, rfl⟩
              exact ⟨rfl, rfl, rfl, rfl, hlength, rfl⟩
            · rintro ⟨rfl, rfl, rfl, rfl, -, rfl⟩
              exact ⟨rfl, rfl, rfl, rfl, rfl⟩
          · simp [bind, Except.bind, hlength]

theorem getD_fields (spec : String) (i : Nat) :
    (fields spec.toList).getD i [] = ((parts spec)[i]?.map trim).getD [] := by
  rw [fields, List.getD_eq_getElem?_getD, List.getElem?_map]
  rfl

theorem parts_ne_nil (spec : String) : parts spec ≠ [] :=
  List.splitOn_ne_nil ':' spec.toList

/-- A tool is read from the texts that specify it. -/
theorem parse_eq_ok_iff {spec : String} {tool : Tool} :
    parse spec = .ok tool ↔ Specifies spec tool := by
  obtain ⟨first, others, hparts⟩ := List.exists_cons_of_ne_nil (parts_ne_nil spec)
  have hlength : (fields spec.toList).length = (parts spec).length := List.length_map _
  rw [parse, ofFields_eq_ok_iff, getD_fields, getD_fields, getD_fields, getD_fields, getD_fields,
    hlength, ← isQuantity_iff, ← isQuantity_iff, ← isQuantity_iff, ← isName_iff,
    readNumber_eq_ok_iff]
  constructor
  · rintro ⟨number, diameter, feed, spindle, length, name⟩
    refine ⟨length, ⟨first, by rw [hparts]; rfl, ?_⟩, name, diameter, feed, spindle⟩
    rwa [hparts] at number
  · rintro ⟨length, ⟨field, hfield, number⟩, name, diameter, feed, spindle⟩
    refine ⟨?_, diameter, feed, spindle, length, name⟩
    rwa [Option.mem_def.1 hfield]

theorem exists_isQuantity_of_isSpec {spec : String} (h : IsSpec spec) {i : Nat} (hi : 2 ≤ i) :
    ∃ x, IsQuantity (parts spec)[i]? x := by
  cases hfield : (parts spec)[i]? with
  | none => exact ⟨0, .missing⟩
  | some field =>
    have hmem : field ∈ (parts spec).drop 2 := by
      rw [List.mem_iff_getElem?]
      refine ⟨i - 2, ?_⟩
      rwa [List.getElem?_drop, Nat.add_sub_cancel' hi]
    obtain hblank | ⟨x, hnumeral⟩ := h.quantities field hmem
    · exact ⟨0, .blank hblank⟩
    · exact ⟨x, .given hnumeral⟩

theorem exists_isName (number : Nat) (field : Option (List Char)) :
    ∃ name, IsName number field name :=
  ⟨_, isName_iff.2 rfl⟩

theorem IsQuantity.blank_or_numeral {field : List Char} {x : Float}
    (h : IsQuantity (some field) x) :
    (∀ c ∈ field, isBlank c = true) ∨ ∃ x, Denotes (trim field) x := by
  cases h with
  | blank blanks => exact .inl blanks
  | given numeral => exact .inr ⟨x, numeral⟩

/-- A text specifies a tool exactly if it is a specification. -/
theorem exists_parse_iff {spec : String} : (∃ tool, parse spec = .ok tool) ↔ IsSpec spec := by
  constructor
  · rintro ⟨tool, hparse⟩
    obtain ⟨length, ⟨field, hfield, number⟩, -, diameter, feed, spindle⟩ := parse_eq_ok_iff.1 hparse
    refine ⟨⟨List.length_pos_iff.2 (parts_ne_nil spec), length⟩,
      ⟨field, hfield, tool.number, number⟩, ?_⟩
    intro other hother
    obtain ⟨i, hi⟩ := List.mem_iff_getElem?.1 hother
    rw [List.getElem?_drop] at hi
    have hbound := (List.getElem?_eq_some_iff.1 hi).1
    -- Behind the second field there are three at most.
    obtain rfl | rfl | rfl : i = 0 ∨ i = 1 ∨ i = 2 := by omega
    · exact (hi ▸ diameter).blank_or_numeral
    · exact (hi ▸ feed).blank_or_numeral
    · exact (hi ▸ spindle).blank_or_numeral
  · intro h
    obtain ⟨field, hfield, number, hnumber⟩ := h.number
    obtain ⟨name, hname⟩ := exists_isName number (parts spec)[1]?
    obtain ⟨diameter, hdiameter⟩ := exists_isQuantity_of_isSpec h (Nat.le_refl 2)
    obtain ⟨feed, hfeed⟩ := exists_isQuantity_of_isSpec h (show 2 ≤ 3 by decide)
    obtain ⟨spindle, hspindle⟩ := exists_isQuantity_of_isSpec h (show 2 ≤ 4 by decide)
    exact ⟨⟨number, name, diameter, feed, spindle⟩, parse_eq_ok_iff.2
      ⟨h.length.2, ⟨field, hfield, hnumber⟩, hname, hdiameter, hfeed, hspindle⟩⟩

/-- The specification of a tool in full, with the texts of its quantities. -/
def render (number : Nat) (name : String) (diameter feed spindle : List Char) : String :=
  Number.natText number ++ ":" ++ name ++ ":" ++ String.ofList diameter ++ ":" ++
    String.ofList feed ++ ":" ++ String.ofList spindle

theorem trim_of_isNumeralChar {text : List Char} (h : ∀ c ∈ text, Number.IsNumeralChar c) :
    trim text = text := by
  apply IsTrimmed.trim_eq
  constructor
  · intro c hc
    exact (h c (List.mem_of_mem_head? hc)).isBlank_eq_false
  · intro c hc
    exact (h c (List.mem_of_mem_getLast? hc)).isBlank_eq_false

theorem colon_notMem {text : List Char} (h : ∀ c ∈ text, Number.IsNumeralChar c) : ':' ∉ text :=
  fun hmem => (h ':' hmem).ne_colon rfl

theorem counts_digits {n : Nat} (h : n ≤ maxNumber) : Counts maxNumber (Number.digits n) n := by
  have hvalue := Number.natOfDigits_digits n
  have hcounts : Counts maxNumber ([] ++ Number.digits n) (Number.natOfDigits (Number.digits n)) :=
    .mk (.inl rfl) (Number.isDigits_digits n) (hvalue.le.trans h)
  rwa [List.nil_append, hvalue] at hcounts

theorem IsQuantity.of_denotes {text : List Char} {x : Float} (h : Denotes text x) :
    IsQuantity (some text) x := by
  rw [← trim_of_isNumeralChar h.isNumeralChar] at h
  exact .given h

theorem parts_render {number : Nat} {name : String} {diameter feed spindle : List Char}
    (hname : ':' ∉ name.toList) (hdiameter : ':' ∉ diameter) (hfeed : ':' ∉ feed)
    (hspindle : ':' ∉ spindle) :
    parts (render number name diameter feed spindle) =
      [Number.digits number, name.toList, diameter, feed, spindle] := by
  have hnumber : ':' ∉ Number.digits number := by
    apply colon_notMem
    intro c hc
    exact .inr (.inl ((Number.isDigits_digits number).isDigit c hc))
  have htext : (render number name diameter feed spindle).toList =
      Number.digits number ++ ':' ::
          (name.toList ++ ':' :: (diameter ++ ':' :: (feed ++ ':' :: spindle))) := by
    simp [render, Number.natText]
  rw [parts, htext, List.splitOn_append_cons_self_of_not_mem hnumber,
    List.splitOn_append_cons_self_of_not_mem hname,
    List.splitOn_append_cons_self_of_not_mem hdiameter,
    List.splitOn_append_cons_self_of_not_mem hfeed, List.splitOn_eq_singleton hspindle]

/-- A specification in full specifies the tool that it was written for. -/
theorem specifies_render {tool : Tool} (hnumber : tool.number ≤ maxNumber)
    (htrimmed : IsTrimmed tool.name.toList) (hne : tool.name ≠ "") (hcolon : ':' ∉ tool.name.toList)
    {diameter feed spindle : List Char} (hdiameter : Denotes diameter tool.diameter)
    (hfeed : Denotes feed tool.feed) (hspindle : Denotes spindle tool.spindle) :
    Specifies (render tool.number tool.name diameter feed spindle) tool := by
  have hparts : parts (render tool.number tool.name diameter feed spindle) = _ :=
    parts_render hcolon (colon_notMem hdiameter.isNumeralChar)
      (colon_notMem hfeed.isNumeralChar) (colon_notMem hspindle.isNumeralChar)
  have hname : IsName tool.number (some tool.name.toList) tool.name := by
    rw [isName_iff, Option.map_some, Option.getD_some, htrimmed.trim_eq, toolName, if_neg,
      String.ofList_toList]
    simpa using hne
  refine ⟨?_, ?_, ?_, ?_, ?_, ?_⟩
  · rw [hparts]
    exact Nat.le_refl 5
  · rw [hparts]
    refine ⟨_, rfl, ?_⟩
    rw [trim_of_isNumeralChar]
    · exact counts_digits hnumber
    · intro c hc
      exact .inr (.inl ((Number.isDigits_digits tool.number).isDigit c hc))
  · rw [hparts]
    exact hname
  · rw [hparts]
    exact .of_denotes hdiameter
  · rw [hparts]
    exact .of_denotes hfeed
  · rw [hparts]
    exact .of_denotes hspindle

/-- Exactly the specifications are read, each gives the tool that it specifies, and a tool written
in full is read back. -/
theorem parse_specifies :
    (∀ spec, (∃ tool, parse spec = .ok tool) ↔ IsSpec spec) ∧
    (∀ spec tool, parse spec = .ok tool ↔ Specifies spec tool) ∧
    ∀ tool : Tool, tool.number ≤ maxNumber → IsTrimmed tool.name.toList → tool.name ≠ "" →
      ':' ∉ tool.name.toList → ∀ diameter feed spindle, Denotes diameter tool.diameter →
        Denotes feed tool.feed →
      Denotes spindle tool.spindle → parse (render tool.number tool.name diameter feed spindle) =
        .ok tool := by
  refine ⟨fun spec => exists_parse_iff, fun spec tool => parse_eq_ok_iff, ?_⟩
  intro tool hnumber htrimmed hne hcolon diameter feed spindle hdiameter hfeed hspindle
  exact parse_eq_ok_iff.2 (specifies_render hnumber htrimmed hne hcolon hdiameter hfeed hspindle)

/-- The largest number, a name with a blank inside and three numerals of different kinds. -/
theorem parse_largest_number :
    parse "4294967295:Rough turning:.5e1:-inf:+12" =
      .ok ⟨4294967295, "Rough turning", 5, -(1 / 0), 12⟩ := by
  have hread := parse_specifies.2.2 ⟨4294967295, "Rough turning", 5, -(1 / 0), 12⟩ (by decide)
    (Text.isTrimmed_iff.2 (by decide +kernel)) (by decide) (by decide)
    ".5e1".toList "-inf".toList "+12".toList
    (Number.float?_eq_some_iff.1 (by decide +kernel))
    (Number.float?_eq_some_iff.1 (by decide +kernel))
    (Number.float?_eq_some_iff.1 (by decide +kernel))
  exact hread

end Turnery.ToolSpec
