import Turnery.Proofs.Gcode.Instruction
import Turnery.Proofs.Number.Arithmetic
import Turnery.Proofs.Number.Canonical
import Turnery.Proofs.Settings.Given
import Turnery.Settings.Derived

/-!
# Feeds and spindle speeds

Settings make sense only with a positive feed and a positive spindle speed. A program need not have
such words for all that: a tool's own values and what is given in place of the settings are not
checked, and what is positive can be lost in rounding. `words_program` says which feeds and speeds a
program has, and that these are the only ways in which one of them is not positive.
-/

namespace Turnery.Gcode

open Number (written? toRat)

/-- The words of a line that start with a letter, without the letter; a remark has none. -/
def wordsOfLine (letter : Char) (line : List Char) : List (List Char) :=
  if line.head? = some ';' then []
  else (line.splitOn ' ').filterMap fun word =>
    if word.head? = some letter then some word.tail else none

/-- The words of a program that start with a letter, without the letter. -/
def wordsOf (letter : Char) (program : String) : List (List Char) :=
  (Text.lines program.toList).flatMap (wordsOfLine letter)

def Instruction.words : Instruction → List (List Char)
  | remark => []
  | unitMode .inch => [['G', '2', '0']]
  | unitMode .mm => [['G', '2', '1']]
  | absoluteMode => [['G', '9', '0']]
  | toolSelect number => ['T' :: number]
  | toolChange => [['M', '6']]
  | spindleSpeed speed => ['S' :: speed]
  | spindleOn => [['M', '3']]
  | rapidHeight z => [['G', '0'], 'Z' :: z]
  | rapid x z => [['G', '0'], 'X' :: x, 'Z' :: z]
  | cut x z feed => [['G', '1'], 'X' :: x, 'Z' :: z, 'F' :: feed]
  | spindleOff => [['M', '5']]
  | endOfProgram => [['M', '3', '0']]

theorem eq_words_of_ofWords? {words : List (List Char)} {instruction : Instruction}
    (h : Instruction.ofWords? words = some instruction) : words = instruction.words := by
  unfold Instruction.ofWords? at h
  split at h <;> cases h <;> rfl

theorem wordsOfLine_text (letter : Char) (line : Line) :
    wordsOfLine letter line.text.toList =
      line.instruction.words.filterMap fun word =>
        if word.head? = some letter then some word.tail else none := by
  have hread := ofText?_text line
  rw [Instruction.ofText?] at hread
  rw [wordsOfLine]
  by_cases hremark : line.text.toList.head? = some ';'
  · rw [if_pos hremark] at hread ⊢
    rw [← Option.some.inj hread]
    rfl
  · rw [if_neg hremark] at hread ⊢
    rw [eq_words_of_ofWords? hread]

def Line.feeds : Line → List Float
  | cut _ feed => [feed]
  | _ => []

/-- The spindle speeds that a line sets. -/
def Line.speeds : Line → List Float
  | spindleSpeed rpm => [rpm]
  | _ => []

theorem wordsOfLine_feed (line : Line) :
    wordsOfLine 'F' line.text.toList = line.feeds.map fun feed => (number feed).toList := by
  rw [wordsOfLine_text]
  cases line with
  | unitMode units => cases units <;> rfl
  | _ => rfl

theorem wordsOfLine_speed (line : Line) :
    wordsOfLine 'S' line.text.toList = line.speeds.map fun rpm =>
      (Number.wholeDecimal rpm).toList := by
  rw [wordsOfLine_text]
  cases line with
  | unitMode units => cases units <;> rfl
  | _ => rfl

namespace Turning

variable (turning : Turning)

theorem feeds_pass (safeZ feed : Float) (line : Polyline Float) :
    (turning.pass safeZ feed line).flatMap Line.feeds = List.replicate line.points.length feed := by
  rw [pass, ← List.length_map (Point.scale turning.scale)]
  cases line.points.map (Point.scale turning.scale) with
  | nil => rfl
  | cons first others =>
    have hcuts : ((first :: others).map (Line.cut · feed)).flatMap Line.feeds =
        List.replicate (first :: others).length feed := by
      rw [List.flatMap_map, ← List.map_const', List.map_eq_flatMap]
      rfl
    simp only [List.cons_append, List.flatMap_cons, List.flatMap_append, hcuts]
    exact List.append_nil _

theorem speeds_pass (safeZ feed : Float) (line : Polyline Float) :
    (turning.pass safeZ feed line).flatMap Line.speeds = [] := by
  rw [List.flatMap_eq_nil_iff]
  intro l hl
  unfold pass at hl
  split at hl
  · cases hl
  · rename_i first others _
    simp only [List.cons_append, List.mem_cons, List.mem_append, List.mem_map, List.not_mem_nil,
      or_false] at hl
    rcases hl with rfl | ⟨p, -, rfl⟩ | rfl <;> rfl

theorem feeds_toolSection (work : Linework Float) (safeZ : Float) (tool : Tool) :
    (turning.toolSection work safeZ tool).flatMap Line.feeds =
      List.replicate work.pointCount (turning.feedOf tool) := by
  have hpasses : (work.polylines.flatMap (turning.pass safeZ (turning.feedOf tool))).flatMap
      Line.feeds = List.replicate work.pointCount (turning.feedOf tool) := by
    rw [List.flatMap_assoc, Linework.pointCount, Linework.points, List.length_flatMap]
    induction work.polylines with
    | nil => rfl
    | cons line lines ih =>
      rw [List.flatMap_cons, feeds_pass, ih, List.map_cons, List.sum_cons,
        List.replicate_append_replicate]
  rw [toolSection, List.flatMap_append, List.flatMap_append, hpasses]
  exact List.append_nil _

theorem speeds_toolSection (work : Linework Float) (safeZ : Float) (tool : Tool) :
    (turning.toolSection work safeZ tool).flatMap Line.speeds = [turning.spindleOf tool] := by
  have hpasses : (work.polylines.flatMap (turning.pass safeZ (turning.feedOf tool))).flatMap
      Line.speeds = [] := by
    rw [List.flatMap_assoc, List.flatMap_eq_nil_iff]
    intro line _
    exact turning.speeds_pass safeZ _ line
  rw [toolSection, List.flatMap_append, List.flatMap_append, hpasses]
  rfl

/-- Every tool cuts to every point, with one feed. -/
theorem feedWords_generate (work : Linework Float) (job : Job) :
    wordsOf 'F' (turning.generate work job) =
      job.tools.flatMap fun tool =>
        List.replicate work.pointCount (number (turning.feedOf tool)).toList := by
  have hfeeds : (turning.program work job).flatMap Line.feeds =
      job.tools.flatMap fun tool => List.replicate work.pointCount (turning.feedOf tool) := by
    rw [program, List.flatMap_append, List.flatMap_append, List.flatMap_assoc]
    simp only [feeds_toolSection]
    exact List.append_nil _
  rw [wordsOf, lines_generate, List.flatMap_map]
  simp only [wordsOfLine_feed]
  rw [← List.map_flatMap, hfeeds, List.map_flatMap]
  simp only [List.map_replicate]

/-- Every tool sets one spindle speed. -/
theorem speedWords_generate (work : Linework Float) (job : Job) :
    wordsOf 'S' (turning.generate work job) =
      job.tools.map fun tool => (Number.wholeDecimal (turning.spindleOf tool)).toList := by
  have hspeeds : (turning.program work job).flatMap Line.speeds =
      job.tools.map turning.spindleOf := by
    rw [program, List.flatMap_append, List.flatMap_append, List.flatMap_assoc]
    simp only [speeds_toolSection]
    rw [← List.map_eq_flatMap]
    exact List.append_nil _
  rw [wordsOf, lines_generate, List.flatMap_map]
  simp only [wordsOfLine_speed]
  rw [← List.map_flatMap, hspeeds, List.map_map]
  rfl

end Turning

/-- The word denotes a positive number. -/
def IsPositiveWord (word : List Char) : Prop :=
  ∃ q, written? word = some q ∧ 0 < q

theorem isPositiveWord_iff {word : List Char} {q : ℚ} (h : written? word = some q) :
    IsPositiveWord word ↔ 0 < q := by
  rw [IsPositiveWord, h]
  simp

/-- The words for what is not finite denote nothing. -/
theorem not_isPositiveWord_special (negative : Bool) :
    ¬IsPositiveWord "NaN".toList ∧ ¬IsPositiveWord (Number.signed negative "inf").toList := by
  have hnone : written? "NaN".toList = none ∧
      written? (Number.signed negative "inf").toList = none := by
    cases negative <;> decide
  constructor
  · rintro ⟨q, hq, -⟩
    rw [hnone.1] at hq
    nomatch hq
  · rintro ⟨q, hq, -⟩
    rw [hnone.2] at hq
    nomatch hq

/-- A number word is positive where the number is more than half a unit of the fourth decimal. -/
theorem isPositiveWord_number_iff {x : Float} :
    IsPositiveWord (number x).toList ↔ x.isFinite = true ∧ 1 / 20000 < toRat x := by
  by_cases hfinite : x.isFinite = true
  · obtain ⟨units, hnearest, htext⟩ := Number.exists_trimmedDecimal_eq 4 hfinite
    have hword : written? (number x).toList = some (units / 10 ^ 4 : ℚ) := by
      rw [number, htext, String.toList_ofList, Number.written?_unitsText]
    have hhalf := abs_le.1 hnearest.abs_sub_le_half
    rw [isPositiveWord_iff hword, div_pos_iff_of_pos_right (by positivity), Int.cast_pos]
    constructor
    · intro hpos
      have hone : (1 : ℚ) ≤ units := by exact_mod_cast hpos
      refine ⟨hfinite, lt_of_not_ge fun hle => ?_⟩
      -- Half a unit is as near to zero as to one, and zero is even.
      have hunits : (units : ℚ) = 1 := by linarith
      have hunit : units = 1 := by exact_mod_cast hunits
      have hvalue : toRat x * 10 ^ 4 = 1 / 2 := by linarith
      have heven := hnearest.even 0 (by omega) (by rw [hvalue, hunit]; norm_num)
      rw [hunit] at heven
      exact absurd heven (by decide)
    · rintro ⟨-, hmore⟩
      have hpos : (0 : ℚ) < units := by linarith
      exact_mod_cast hpos
  · have hnot : ¬IsPositiveWord (number x).toList := by
      rw [number, Number.trimmedDecimal]
      split
      · exact (not_isPositiveWord_special false).1
      · exact (not_isPositiveWord_special _).2
      · rename_i negative mantissa exponent hx
        exact absurd (Number.Binary64.isFinite_iff.2 ⟨negative, mantissa, exponent, hx⟩) hfinite
    exact iff_of_false hnot fun h => hfinite h.1

theorem written?_signed_digits (negative : Bool) (n : ℕ) :
    written? (Number.signed negative (String.ofList (Number.digits n))).toList =
      some (Number.withSign negative n) := by
  obtain ⟨ds, e, hread, hvalue⟩ := Number.exists_unsigned?_canonical 0 n
  have hplain : Number.digits (n / Nat.pow 10 0) ++ Number.fractionText 0 n = Number.digits n := by
    rw [Nat.pow_eq, pow_zero, Nat.div_one]
    exact List.append_nil _
  rw [hplain] at hread
  rw [pow_zero, div_one] at hvalue
  have hsigned : (Number.signed negative (String.ofList (Number.digits n))).toList =
      (if negative then ['-'] else []) ++ Number.digits n := by
    cases negative <;> simp [Number.signed]
  rw [hsigned, Number.written?_of_isUnsigned negative (.whole (Number.isDigits_digits n)) hread,
    hvalue]

theorem nearestNat_away_pos_iff {q : ℚ} (hq : 0 ≤ q) :
    0 < Number.nearestNat .away q ↔ 1 / 2 ≤ q := by
  constructor
  · intro hpos
    by_contra hless
    have hzero : Number.nearestNat .away q = 0 := by
      apply Number.nearestNat_eq_of_abs_sub_lt .away hq
      rw [abs_lt]
      push_cast
      constructor <;> linarith
    omega
  · intro hmore
    rcases hmore.eq_or_lt with hhalf | hmore
    · have htie := Number.nearestNat_tie .away 0
      rw [Nat.cast_zero, zero_add, hhalf] at htie
      rw [htie]
      decide
    · have hnear := (abs_le.1 (Number.abs_nearestNat_sub_le .away hq)).1
      have hpos : (0 : ℚ) < Number.nearestNat .away q := by linarith
      exact_mod_cast hpos

/-- A whole number word is positive where the number is one half at least. -/
theorem isPositiveWord_wholeDecimal_iff {x : Float} :
    IsPositiveWord (Number.wholeDecimal x).toList ↔ x.isFinite = true ∧ 1 / 2 ≤ toRat x := by
  rw [Number.wholeDecimal]
  split
  · rename_i hx
    have hfinite : ¬x.isFinite = true := by
      rw [Number.Binary64.isFinite_iff, hx]
      simp
    exact iff_of_false (not_isPositiveWord_special false).1 fun h => hfinite h.1
  · rename_i negative hx
    have hfinite : ¬x.isFinite = true := by
      rw [Number.Binary64.isFinite_iff, hx]
      simp
    exact iff_of_false (not_isPositiveWord_special negative).2 fun h => hfinite h.1
  · rename_i negative mantissa exponent hx
    have hnonneg := Number.Binary64.magnitude_nonneg mantissa exponent
    rw [Number.nearestUnits_eq, pow_zero, mul_one, Number.toRat_of_ofFloat hx,
      and_iff_right (Number.Binary64.isFinite_iff.2 ⟨_, _, _, hx⟩)]
    generalize Number.Binary64.magnitude mantissa exponent = q at hnonneg ⊢
    rw [isPositiveWord_iff (written?_signed_digits negative _)]
    cases negative with
    | true =>
      rw [Number.withSign, Number.withSign, if_pos rfl, if_pos rfl]
      constructor
      · intro h
        have := Nat.cast_nonneg (α := ℚ) (Number.nearestNat .away q)
        linarith
      · intro h
        linarith
    | false =>
      rw [Number.withSign, Number.withSign, if_neg (by decide), if_neg (by decide), Nat.cast_pos]
      exact nearestNat_away_pos_iff hnonneg

/-- Why a word is not positive: the tool's own value is infinite, what is given in place of the
setting is not a positive number, or what applies is lost in rounding. -/
inductive IsSpoilt (Tiny : ℚ → Prop) (own : Float) (given : Option Float) (setting : Float) :
    Prop where
  | endless (positive : 0 < own) (infinite : own.isFinite = false)
  | unchecked {x : Float} (absent : ¬0 < own) (isGiven : given = some x)
    (bad : Settings.isPositive x = false)
  | lost {x : Float} (applies : x = if 0 < own then own else given.getD setting)
    (finite : x.isFinite = true)
    (tiny : Tiny (toRat x))

/-- A positive setting is spoilt in no other way. -/
theorem isSpoilt_iff {Tiny : ℚ → Prop} {own setting : Float} {given : Option Float}
    (htiny : ∀ q ≤ 0, Tiny q) (sound : setting.isFinite = true ∧ 0 < setting) {x : Float}
    (applies : x = if 0 < own then own else given.getD setting) :
    IsSpoilt Tiny own given setting ↔ ¬(x.isFinite = true ∧ ¬Tiny (toRat x)) := by
  constructor
  · rintro h ⟨hfinite, hkept⟩
    cases h with
    | endless positive infinite =>
      rw [applies, if_pos positive, infinite] at hfinite
      nomatch hfinite
    | @unchecked y absent isGiven bad =>
      rw [if_neg absent, isGiven, Option.getD_some] at applies
      obtain rfl := applies
      have hnot : ¬0 < x := by
        intro hpos
        rw [Settings.isPositive_iff.2 ⟨hfinite, hpos⟩] at bad
        nomatch bad
      rw [Number.pos_iff_toRat_pos hfinite, not_lt] at hnot
      exact hkept (htiny _ hnot)
    | lost applies' finite tiny =>
      rw [applies, ← applies'] at hkept
      exact hkept tiny
  · intro h
    by_cases hfinite : x.isFinite = true
    · refine .lost applies hfinite ?_
      by_contra hkept
      exact h ⟨hfinite, hkept⟩
    · rw [Bool.not_eq_true] at hfinite
      by_cases hown : 0 < own
      · rw [if_pos hown] at applies
        exact .endless hown (applies ▸ hfinite)
      · rw [if_neg hown] at applies
        cases given with
        | none =>
          rw [applies, Option.getD_none, sound.1] at hfinite
          nomatch hfinite
        | some y =>
          obtain rfl : x = y := applies
          refine .unchecked hown rfl ?_
          rw [Settings.isPositive, hfinite, Bool.false_and]

end Turnery.Gcode

namespace Turnery.Settings

open Gcode

/-- Settings that make sense lead to a feed word for every point and tool and to a speed word for
every tool. The words are positive but for tools of which the feed or the speed is spoilt. -/
theorem words_program {s : Settings} (valid : s.check = none) (given : Turning.Adjustment)
    (work : Linework Float) (tools : List Tool) :
    let program := s.program given work tools
    let turning := s.turning.adjust given
    (wordsOf 'F' program =
        tools.flatMap fun tool =>
          List.replicate work.pointCount (number (turning.feedOf tool)).toList) ∧
      (wordsOf 'S' program = tools.map fun tool =>
        (Number.wholeDecimal (turning.spindleOf tool)).toList) ∧
      ((∀ word ∈ wordsOf 'F' program, IsPositiveWord word) ↔
        work.pointCount = 0 ∨
          ∀ tool ∈ tools, ¬IsSpoilt (· ≤ 1 / 20000) tool.feed given.feed s.generation.feed) ∧
      ((∀ word ∈ wordsOf 'S' program, IsPositiveWord word) ↔
        ∀ tool ∈ tools, ¬IsSpoilt (· < 1 / 2) tool.spindle given.spindle s.generation.spindle) := by
  intro program turning
  have sound := check_eq_none_iff_isSound.1 valid
  have hfeeds : wordsOf 'F' program = _ := turning.feedWords_generate work (s.job tools)
  have hspeeds : wordsOf 'S' program = _ := turning.speedWords_generate work (s.job tools)
  have hfeed : ∀ tool : Tool, IsPositiveWord (number (turning.feedOf tool)).toList ↔
      ¬IsSpoilt (· ≤ 1 / 20000) tool.feed given.feed s.generation.feed := by
    intro tool
    rw [isSpoilt_iff (fun q hq => hq.trans (by norm_num)) sound.feed rfl, not_not, not_le]
    exact isPositiveWord_number_iff
  have hspeed : ∀ tool : Tool, IsPositiveWord
      (Number.wholeDecimal (turning.spindleOf tool)).toList ↔
      ¬IsSpoilt (· < 1 / 2) tool.spindle given.spindle s.generation.spindle := by
    intro tool
    rw [isSpoilt_iff (fun q hq => hq.trans_lt (by norm_num)) sound.spindle rfl, not_not, not_lt]
    exact isPositiveWord_wholeDecimal_iff
  refine ⟨hfeeds, hspeeds, ?_, ?_⟩
  · rw [hfeeds]
    simp only [← hfeed, List.forall_mem_flatMap, List.forall_mem_replicate]
    constructor
    · intro h
      rw [or_iff_not_imp_left]
      intro hne tool htool
      exact (h tool htool).resolve_left hne
    · rintro (hzero | h) tool htool
      · exact .inl hzero
      · exact .inr (h tool htool)
  · rw [hspeeds]
    simp only [← hspeed, List.forall_mem_map]
    rfl

/-- Two tools of which one has its own speed and an infinite feed. -/
theorem words_program_infinite_feed :
    let tools : List Tool := [⟨1, "Turning", 6, 0, 0⟩, ⟨2, "Parting", 6, 1 / 0, 1200⟩]
    let work : Linework Float := ⟨[⟨[⟨0, 0⟩, ⟨5, -2⟩]⟩]⟩
    let program := standard.program ⟨none, none, none⟩ work tools
    standard.check = none ∧
      wordsOf 'F' program = ["0.2".toList, "0.2".toList, "inf".toList, "inf".toList] ∧
      wordsOf 'S' program = ["1000".toList, "1200".toList] ∧ ¬∀ word ∈ wordsOf 'F' program,
          IsPositiveWord word := by
  intro tools work program
  have valid : standard.check = none := by decide +kernel
  obtain ⟨hfeeds, hspeeds, hpositive, -⟩ := words_program valid ⟨none, none, none⟩ work tools
  refine ⟨valid, hfeeds.trans (by decide +kernel), hspeeds.trans (by decide +kernel), ?_⟩
  rw [hpositive]
  rintro (hzero | h)
  · exact absurd hzero (by decide)
  · exact h _ (List.mem_cons_of_mem _ List.mem_cons_self)
      (.endless (by decide +kernel) (by decide +kernel))

/-- Sound settings and tools from specifications: the feed is given as zero, a tool has an infinite
feed, or the speed is given as less than one half. -/
theorem exists_words_not_positive :
    let work : Linework Float := ⟨[⟨[⟨0, 0⟩]⟩]⟩
    standard.check = none ∧
      (∃ tools, readTools ["1:Turning"] = .ok tools ∧
        (∃ word ∈ wordsOf 'F' (standard.program ⟨some 0, none, none⟩ work tools),
          ¬IsPositiveWord word) ∧
        ∃ word ∈ wordsOf 'S' (standard.program ⟨none, some 0.4, none⟩ work tools),
          ¬IsPositiveWord word) ∧
      ∃ tools, readTools ["1:Turning:6:inf"] = .ok tools ∧
        ∃ word ∈ wordsOf 'F' (standard.program ⟨none, none, none⟩ work tools),
            ¬IsPositiveWord word := by
  have hzero : ¬IsPositiveWord ['0'] := by
    rw [isPositiveWord_iff (show Number.written? ['0'] = some 0 by decide +kernel)]
    decide
  refine ⟨by decide +kernel,
    ⟨_, rfl, ⟨['0'], by decide +kernel, hzero⟩, ['0'], by decide +kernel, hzero⟩, _, rfl,
    "inf".toList, by decide +kernel, (not_isPositiveWord_special false).2⟩

end Turnery.Settings
