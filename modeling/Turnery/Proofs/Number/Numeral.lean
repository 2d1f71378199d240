import Mathlib
import Turnery.Proofs.Text.Decimal
import Turnery.Proofs.Text.Trim

/-!
# Numerals and what they denote

The readers of numbers go through a text character by character. Here the same is said as a syntax:
`Counts` for natural numbers up to a limit and `Denotes` for doubles. The readers accept exactly the
texts of the syntax and give the numbers that it gives them: `readNat_eq_ok_iff` and
`float?_eq_some_iff`. A numeral stands for itself in any list of fields, since it has neither blanks
nor colons (`Denotes.isNumeralChar`).
-/

namespace Turnery.Number

open Text (IsSign isBlank)

/-- A natural number of at most the limit: one or more digits, with a plus sign or without a
sign. -/
inductive Counts (limit : Nat) : List Char → Nat → Prop where
  | mk {sign ds : List Char} (plus : sign = [] ∨ sign = ['+']) (digits : IsDigits ds)
    (le : natOfDigits ds ≤ limit) :
    Counts limit (sign ++ ds) (natOfDigits ds)

/-- The sign makes a number negative. -/
def isMinus (sign : List Char) : Bool :=
  sign == ['-']

/-- Digits with at most one point before, among or behind them, and the digits on either side of
it. -/
inductive HasDigits : List Char → List Char → List Char → Prop where
  | whole {ds : List Char} (digits : IsDigits ds) : HasDigits ds ds []
  | pointed {ds es : List Char} (before : ∀ c ∈ ds, c.isDigit = true)
    (behind : ∀ c ∈ es, c.isDigit = true)
    (some : ds ≠ [] ∨ es ≠ []) : HasDigits (ds ++ '.' :: es) ds es

/-- An exponent or nothing, and the power of ten that it stands for. -/
inductive HasPower : List Char → Int → Prop where
  | none : HasPower [] 0
  | some {mark : Char} {sign ds : List Char} (isMark : mark = 'e' ∨ mark = 'E')
    (front : IsSign sign)
    (digits : IsDigits ds) :
    HasPower (mark :: (sign ++ ds)) (if isMinus sign then -(natOfDigits ds : Int)
      else natOfDigits ds)

/-- The words for the doubles that no digits denote, in any case of the letters. -/
inductive IsWord : List Char → Float → Prop where
  | infinite {text : List Char} (spelled : text.map Char.toLower = "inf".toList ∨
    text.map Char.toLower =
      "infinity".toList) : IsWord text (1 / 0)
  | notANumber {text : List Char} (spelled : text.map Char.toLower = "nan".toList) :
    IsWord text (0 / 0)

/-- The text is a numeral for the double. -/
inductive Denotes : List Char → Float → Prop where
  | decimal {sign body exponent whole fraction : List Char} {power : Int} (front : IsSign sign)
    (magnitude : HasDigits body whole fraction) (hasPower : HasPower exponent power) :
    Denotes (sign ++ (body ++ exponent))
      (Numeral.toFloat ⟨isMinus sign, natOfDigits (whole ++ fraction),
        power - (fraction.length : Int)⟩)
  | word {sign body : List Char} {x : Float} (front : IsSign sign) (isWord : IsWord body x) :
    Denotes (sign ++ body) (if isMinus sign then -x else x)

theorem le_appendDigits (n : Nat) (ds : List Char) : n ≤ appendDigits n ds := by
  induction ds generalizing n with
  | nil => exact Nat.le_refl n
  | cons d rest ih =>
    have hstep : n ≤ 10 * n + digitValue d := by omega
    rw [appendDigits_cons]
    exact Nat.le_trans hstep (ih _)

/-- The reader stops at the first excess, and there is one if the whole number is too large. -/
theorem readUpTo_eq_ok_iff {limit n m : Nat} {excess : IntegerError} {ds : List Char}
    (hn : n ≤ limit) :
    readUpTo limit excess n ds = .ok m ↔
      (∀ c ∈ ds, c.isDigit = true) ∧ appendDigits n ds = m ∧ m ≤ limit := by
  induction ds generalizing n with
  | nil =>
    rw [readUpTo, appendDigits_nil, Except.ok.injEq]
    constructor
    · rintro rfl
      exact ⟨List.forall_mem_nil _, rfl, hn⟩
    · rintro ⟨-, rfl, -⟩
      rfl
  | cons d rest ih =>
    rw [readUpTo, appendDigits_cons]
    split
    next hd =>
      constructor
      · intro h
        nomatch h
      · rintro ⟨hdigits, -⟩
        have hdigit := hdigits d List.mem_cons_self
        rw [hdigit] at hd
        nomatch hd
    next hd =>
      have hdigit : d.isDigit = true := by simpa using hd
      split
      next hlimit =>
        constructor
        · intro h
          nomatch h
        · rintro ⟨-, rfl, hle⟩
          have hgrows := le_appendDigits (10 * n + digitValue d) rest
          omega
      next hlimit =>
        rw [ih (Nat.le_of_not_lt hlimit), List.forall_mem_cons]
        constructor
        · rintro ⟨hrest, hvalue⟩
          exact ⟨⟨hdigit, hrest⟩, hvalue⟩
        · rintro ⟨⟨-, hrest⟩, hvalue⟩
          exact ⟨hrest, hvalue⟩

theorem Counts.of_readUpTo {limit n : Nat} {sign ds : List Char} (plus : sign = [] ∨ sign = ['+'])
    (hne : ds ≠ []) (h : readUpTo limit .tooLarge 0 ds = .ok n) : Counts limit (sign ++ ds) n := by
  obtain ⟨hdigits, rfl, hle⟩ := (readUpTo_eq_ok_iff (Nat.zero_le limit)).1 h
  exact .mk plus ⟨hne, hdigits⟩ hle

/-- Natural numbers are read from the numerals for them, and from nothing else. -/
theorem readNat_eq_ok_iff {limit n : Nat} {text : List Char} :
    readNat limit text = .ok n ↔ Counts limit text n := by
  constructor
  · intro h
    unfold readNat at h
    split at h
    next => nomatch h
    next => nomatch h
    next ds hplus =>
      refine .of_readUpTo (.inr rfl) ?_ h
      rintro rfl
      exact hplus rfl
    next hne _ _ => exact .of_readUpTo (.inl rfl) hne h
  · rintro @⟨sign, ds, plus, digits, le⟩
    have hread : readUpTo limit .tooLarge 0 ds = .ok (natOfDigits ds) :=
      (readUpTo_eq_ok_iff (Nat.zero_le limit)).2 ⟨digits.isDigit, rfl, le⟩
    obtain ⟨d, rest, rfl⟩ := List.exists_cons_of_ne_nil digits.ne_nil
    obtain rfl | rfl := plus
    · have hd : d ≠ '+' := by
        rintro rfl
        exact absurd (digits.isDigit '+' List.mem_cons_self) (by decide)
      rw [List.nil_append, readNat.eq_4, hread]
      · simp
      · simp [hd]
      · simp [hd]
    · rw [List.singleton_append, readNat.eq_3, hread]
      simp

theorem isSign_of_splitSign (text : List Char) :
    ∃ sign, IsSign sign ∧ text = sign ++ (splitSign text).2 ∧
      (splitSign text).1 = isMinus sign := by
  unfold splitSign
  split
  next rest => exact ⟨['-'], .minus, rfl, rfl⟩
  next rest => exact ⟨['+'], .plus, rfl, rfl⟩
  next => exact ⟨[], .none, rfl, rfl⟩

theorem splitSign_append {sign body : List Char} (front : IsSign sign)
    (hbody : ∀ c ∈ body.head?, c ≠ '-' ∧ c ≠ '+') :
    splitSign (sign ++ body) = (isMinus sign, body) := by
  cases front with
  | none =>
    apply splitSign.eq_3
    · rintro rest rfl
      exact (hbody '-' rfl).1 rfl
    · rintro rest rfl
      exact (hbody '+' rfl).2 rfl
  | plus => rfl
  | minus => rfl

theorem not_sign_of_isDigits {ds : List Char} (h : IsDigits ds) :
    ∀ c ∈ ds.head?, c ≠ '-' ∧ c ≠ '+' := by
  intro c hc
  have hdigit := h.isDigit c (List.mem_of_mem_head? hc)
  constructor
  · rintro rfl
    exact absurd hdigit (by decide)
  · rintro rfl
    exact absurd hdigit (by decide)

/-- A whole text is an exponent exactly if the syntax says so. -/
theorem exponent?_eq_some_iff {text : List Char} {power : Int} :
    exponent? text = some power ↔ HasPower text power := by
  constructor
  · intro h
    cases text with
    | nil =>
      obtain rfl := Option.some.inj h
      exact .none
    | cons mark rest =>
      rw [exponent?] at h
      split at h
      next hmark =>
        obtain ⟨sign, front, hrest, hminus⟩ := isSign_of_splitSign rest
        generalize splitSign rest = split at h hrest hminus
        obtain ⟨negative, ds⟩ := split
        simp only at h hrest hminus
        split at h
        next => cases h
        next hdigits =>
          simp only [Bool.or_eq_true, not_or, Bool.not_eq_true, Bool.not_eq_false',
            List.isEmpty_eq_false_iff, List.all_eq_true] at hdigits
          obtain rfl := Option.some.inj h
          rw [hrest, hminus]
          exact .some (by simpa using hmark) front ⟨hdigits.1, hdigits.2⟩
      next => cases h
  · intro h
    cases h with
    | none => rfl
    | @some mark sign ds isMark front digits =>
      have hmark : (mark == 'e' || mark == 'E') = true := by simpa using isMark
      have hdigits : (ds.isEmpty || !ds.all Char.isDigit) = false := by
        simpa using ⟨digits.ne_nil, digits.isDigit⟩
      rw [exponent?, if_pos hmark, splitSign_append front (not_sign_of_isDigits digits)]
      simp only [hdigits, Bool.false_eq_true, if_false]

/-- No digit and no point stands in front of an exponent. -/
theorem HasPower.head {text : List Char} {power : Int} (h : HasPower text power) :
    ∀ c ∈ text.head?, c.isDigit = false ∧ c ≠ '.' := by
  cases h with
  | none =>
    intro c hc
    nomatch hc
  | some isMark =>
    intro c hc
    obtain rfl := Option.some.inj hc
    obtain rfl | rfl := isMark <;> decide

/-- The digits at the front of a text are followed by something else. -/
theorem splitDigits_spec (text : List Char) :
    ∃ ds rest, splitDigits text = (ds, rest) ∧ text = ds ++ rest ∧ (∀ c ∈ ds, c.isDigit = true) :=
  ⟨_, _, rfl, (splitDigits_append text).symm, fun _ hc => List.mem_takeWhile_imp hc⟩

theorem splitFraction_of_ne {rest : List Char} (h : ∀ c ∈ rest.head?, c ≠ '.') :
    splitFraction rest = ([], rest) := by
  apply splitFraction.eq_2
  rintro tail rfl
  exact h '.' rfl rfl

/-- The digits of a decimal, and the text behind it. -/
theorem hasDigits_of_split {text whole rest fraction behind : List Char}
    (hwhole : splitDigits text = (whole, rest))
    (hfraction : splitFraction rest = (fraction, behind)) (some : whole ≠ [] ∨ fraction ≠ []) :
    ∃ body, HasDigits body whole fraction ∧ text = body ++ behind := by
  obtain ⟨ds, others, hsplit, htext, hdigits⟩ := splitDigits_spec text
  rw [hwhole, Prod.mk.injEq] at hsplit
  obtain ⟨rfl, rfl⟩ := hsplit
  unfold splitFraction at hfraction
  split at hfraction
  next tail =>
    obtain ⟨es, others, hsplit, htail, hdecimals⟩ := splitDigits_spec tail
    rw [hfraction, Prod.mk.injEq] at hsplit
    obtain ⟨rfl, rfl⟩ := hsplit
    refine ⟨whole ++ '.' :: fraction, .pointed hdigits hdecimals some, ?_⟩
    rw [htext, htail, List.append_assoc, List.cons_append]
  next =>
    obtain ⟨rfl, rfl⟩ := Prod.mk.inj hfraction
    exact ⟨whole, .whole ⟨some.resolve_right fun h => h rfl, hdigits⟩, htext⟩

theorem HasDigits.split {body whole fraction behind : List Char} (h : HasDigits body whole fraction)
    (hbehind : ∀ c ∈ behind.head?, c.isDigit = false ∧ c ≠ '.') :
    ∃ rest, splitDigits (body ++ behind) = (whole, rest) ∧
      splitFraction rest = (fraction, behind) := by
  cases h with
  | whole digits =>
    exact ⟨behind, splitDigits_append_of_isDigits digits fun c hc => (hbehind c hc).1,
      splitFraction_of_ne fun c hc => (hbehind c hc).2⟩
  | pointed before decimals some =>
    rw [List.append_assoc, List.cons_append]
    exact ⟨_, splitDigits_append_of_head before (by simp),
      splitDigits_append_of_head decimals fun c hc => (hbehind c hc).1⟩

theorem HasDigits.some {body whole fraction : List Char} (h : HasDigits body whole fraction) :
    whole ≠ [] ∨ fraction ≠ [] := by
  cases h with
  | whole digits => exact .inl digits.ne_nil
  | pointed before behind some => exact some

theorem HasDigits.head {body whole fraction : List Char} (h : HasDigits body whole fraction) :
    ∃ c rest, body = c :: rest ∧ (c.isDigit = true ∨ c = '.') := by
  cases h with
  | whole digits =>
    obtain ⟨c, rest, rfl⟩ := List.exists_cons_of_ne_nil digits.ne_nil
    exact ⟨c, rest, rfl, .inl (digits.isDigit c List.mem_cons_self)⟩
  | pointed before =>
    cases whole with
    | nil => exact ⟨'.', fraction, rfl, .inr rfl⟩
    | cons c rest => exact ⟨c, rest ++ '.' :: fraction, rfl, .inl (before c List.mem_cons_self)⟩

/-- A whole text without sign is a decimal exactly if the syntax says so. -/
theorem unsigned?_eq_some_iff {text : List Char} {n : Nat} {k : Int} :
    unsigned? text = some (n, k) ↔
      ∃ body exponent whole fraction power, text = body ++ exponent ∧
        HasDigits body whole fraction ∧
        HasPower exponent power ∧ n = natOfDigits (whole ++ fraction) ∧
          k = power - (fraction.length : Int) := by
  constructor
  · intro h
    unfold unsigned? at h
    cases hwhole : splitDigits text with
    | mk whole rest =>
      cases hfraction : splitFraction rest with
      | mk fraction behind =>
        simp only [hwhole, hfraction] at h
        split at h
        next => nomatch h
        next hsome =>
          obtain ⟨power, hpower, heq⟩ := Option.map_eq_some_iff.1 h
          obtain ⟨rfl, rfl⟩ := Prod.mk.inj heq
          have some : whole ≠ [] ∨ fraction ≠ [] := by
            rwa [Bool.and_eq_true, List.isEmpty_iff, List.isEmpty_iff, not_and_or] at hsome
          obtain ⟨body, hbody, htext⟩ := hasDigits_of_split hwhole hfraction some
          exact ⟨body, behind, whole, fraction, power, htext, hbody, exponent?_eq_some_iff.1 hpower,
            rfl, rfl⟩
  · rintro ⟨body, exponent, whole, fraction, power, rfl, hbody, hpower, rfl, rfl⟩
    obtain ⟨rest, hwhole, hfraction⟩ := hbody.split hpower.head
    have hsome : (whole.isEmpty && fraction.isEmpty) = false := by
      simpa [imp_iff_not_or] using hbody.some
    simp [unsigned?, hwhole, hfraction, hsome, exponent?_eq_some_iff.2 hpower]

theorem word?_eq_some_iff {text : List Char} {x : Float} : word? text = some x ↔ IsWord text x := by
  have hlist : ∀ {letters : String}, String.ofList (text.map Char.toLower) = letters ↔
      text.map Char.toLower = letters.toList := by
    intro letters
    rw [String.ext_iff, String.toList_ofList]
  constructor
  · intro h
    unfold word? at h
    split at h
    next heq =>
      obtain rfl := Option.some.inj h
      exact .infinite (.inl (hlist.1 heq))
    next heq =>
      obtain rfl := Option.some.inj h
      exact .infinite (.inr (hlist.1 heq))
    next heq =>
      obtain rfl := Option.some.inj h
      exact .notANumber (hlist.1 heq)
    next => nomatch h
  · intro h
    cases h with
    | infinite spelled =>
      obtain spelled | spelled := spelled
      · rw [word?, hlist.2 spelled]
        rfl
      · rw [word?, hlist.2 spelled]
        rfl
    | notANumber spelled =>
      rw [word?, hlist.2 spelled]
      rfl

theorem isAlpha_of_isAlpha_toLower {c : Char} (h : c.toLower.isAlpha = true) :
    c.isAlpha = true := by
  by_cases hupper : c.val ≥ 'A'.val ∧ c.val ≤ 'Z'.val
  · have hletter : c.isUpper = true := by simpa [Char.isUpper] using hupper
    rw [Char.isAlpha, hletter, Bool.true_or]
  · rwa [Char.toLower, dif_neg hupper] at h

theorem isAlpha_iff_toNat {c : Char} :
    c.isAlpha = true ↔ (65 ≤ c.toNat ∧ c.toNat ≤ 90) ∨ (97 ≤ c.toNat ∧ c.toNat ≤ 122) := by
  simp only [Char.isAlpha, Char.isUpper, Char.isLower, Bool.or_eq_true, Bool.and_eq_true,
    decide_eq_true_eq, ge_iff_le, UInt32.le_iff_toNat_le]
  exact Iff.rfl

/-- A word is made of letters. -/
theorem IsWord.isAlpha {text : List Char} {x : Float} (h : IsWord text x) :
    ∀ c ∈ text, c.isAlpha = true := by
  have hletters : ∀ {letters : String}, letters.toList.all Char.isAlpha = true →
      text.map Char.toLower = letters.toList → ∀ c ∈ text, c.isAlpha = true := by
    intro letters hall heq c hc
    exact isAlpha_of_isAlpha_toLower (List.all_eq_true.1 hall _ (heq ▸ List.mem_map_of_mem hc))
  cases h with
  | infinite spelled =>
    obtain spelled | spelled := spelled
    · exact hletters (by decide) spelled
    · exact hletters (by decide) spelled
  | notANumber spelled => exact hletters (by decide) spelled

theorem IsWord.exists_cons {text : List Char} {x : Float} (h : IsWord text x) :
    ∃ c rest, text = c :: rest ∧ c.isAlpha = true := by
  have hne : text ≠ [] := by
    rintro rfl
    cases h with
    | infinite spelled => exact absurd spelled (by decide)
    | notANumber spelled => exact absurd spelled (by decide)
  obtain ⟨c, rest, rfl⟩ := List.exists_cons_of_ne_nil hne
  exact ⟨c, rest, rfl, h.isAlpha c List.mem_cons_self⟩

/-- A text that starts with a letter has no digits in front. -/
theorem unsigned?_eq_none_of_isAlpha {c : Char} (hc : c.isAlpha = true) (rest : List Char) :
    unsigned? (c :: rest) = none := by
  rw [Option.eq_none_iff_forall_ne_some]
  rintro ⟨n, k⟩ h
  obtain ⟨body, exponent, whole, fraction, power, htext, hbody, -⟩ := unsigned?_eq_some_iff.1 h
  obtain ⟨d, tail, rfl, hd⟩ := hbody.head
  obtain ⟨rfl, -⟩ := List.cons.inj htext
  obtain hd | rfl := hd
  · have hletter := isAlpha_iff_toNat.1 hc
    have hrange := Char.isDigit_iff_toNat.1 hd
    have hnine : '9'.toNat = 57 := rfl
    omega
  · exact absurd hc (by decide)

/-- Doubles are read from the numerals for them, and from nothing else. -/
theorem float?_eq_some_iff {text : List Char} {x : Float} :
    float? text = some x ↔ Denotes text x := by
  constructor
  · intro h
    obtain ⟨sign, front, htext, hminus⟩ := isSign_of_splitSign text
    unfold float? at h
    generalize splitSign text = split at h htext hminus
    obtain ⟨negative, body⟩ := split
    simp only at h htext hminus
    subst htext hminus
    split at h
    next n k hread =>
      obtain rfl := Option.some.inj h
      obtain ⟨digits, exponent, whole, fraction, power, rfl, hbody, hpower, rfl, rfl⟩ :=
        unsigned?_eq_some_iff.1 hread
      exact .decimal front hbody hpower
    next =>
      obtain ⟨y, hword, rfl⟩ := Option.map_eq_some_iff.1 h
      exact .word front (word?_eq_some_iff.1 hword)
  · intro h
    cases h with
    | @decimal sign body exponent whole fraction power front magnitude hasPower =>
      have hsplit : splitSign (sign ++ (body ++ exponent)) = (isMinus sign, body ++ exponent) := by
        apply splitSign_append front
        obtain ⟨c, rest, rfl, hc⟩ := magnitude.head
        intro d hd
        obtain rfl := Option.some.inj hd
        constructor
        · rintro rfl
          simp at hc
        · rintro rfl
          simp at hc
      have hread :=
        unsigned?_eq_some_iff.2 ⟨body, exponent, whole, fraction, power, rfl, magnitude, hasPower,
          rfl, rfl⟩
      rw [float?, hsplit]
      simp only [hread]
    | @word sign body y front isWord =>
      obtain ⟨c, rest, rfl, hc⟩ := isWord.exists_cons
      have hsplit : splitSign (sign ++ c :: rest) = (isMinus sign, c :: rest) := by
        apply splitSign_append front
        intro d hd
        obtain rfl := Option.some.inj hd
        constructor
        · rintro rfl
          exact absurd hc (by decide)
        · rintro rfl
          exact absurd hc (by decide)
      rw [float?, hsplit]
      simp only [unsigned?_eq_none_of_isAlpha hc, word?_eq_some_iff.2 isWord, Option.map_some]

/-- A letter, a digit, a point or a sign. -/
def IsNumeralChar (c : Char) : Prop :=
  c.isAlpha = true ∨ c.isDigit = true ∨ c = '.' ∨ c = '+' ∨ c = '-'

theorem isBlank_eq_false_of_isAlpha {c : Char} (h : c.isAlpha = true) : isBlank c = false := by
  have hletter := isAlpha_iff_toNat.1 h
  rw [isBlank, Bool.eq_false_iff]
  intro hblank
  obtain ⟨range, hmem, hlow, hhigh⟩ := Text.CodeRange.covers_iff.1 hblank
  simp only [Text.blankRanges, List.mem_cons, List.not_mem_nil, or_false] at hmem
  rcases hmem with rfl | rfl | rfl | rfl | rfl | rfl | rfl | rfl | rfl | rfl <;>
    (dsimp only at hlow hhigh; omega)

theorem IsNumeralChar.isBlank_eq_false {c : Char} (h : IsNumeralChar c) : isBlank c = false := by
  obtain h | h | rfl | rfl | rfl := h
  · exact isBlank_eq_false_of_isAlpha h
  · exact Text.isBlank_eq_false_of_isDigit h
  · decide
  · decide
  · decide

theorem IsNumeralChar.ne_colon {c : Char} (h : IsNumeralChar c) : c ≠ ':' := by
  rintro rfl
  revert h
  unfold IsNumeralChar
  decide

theorem isNumeralChar_of_isSign {sign : List Char} (h : IsSign sign) :
    ∀ c ∈ sign, IsNumeralChar c := by
  cases h with
  | none => exact List.forall_mem_nil _
  | plus => simp [IsNumeralChar]
  | minus => simp [IsNumeralChar]

theorem HasDigits.isNumeralChar {body whole fraction : List Char}
    (h : HasDigits body whole fraction) :
    ∀ c ∈ body, IsNumeralChar c := by
  cases h with
  | whole digits =>
    intro c hc
    exact .inr (.inl (digits.isDigit c hc))
  | pointed before behind =>
    intro c hc
    obtain hc | hc := List.mem_append.1 hc
    · exact .inr (.inl (before c hc))
    · obtain rfl | hc := List.mem_cons.1 hc
      · exact .inr (.inr (.inl rfl))
      · exact .inr (.inl (behind c hc))

theorem HasPower.isNumeralChar {exponent : List Char} {power : Int} (h : HasPower exponent power) :
    ∀ c ∈ exponent, IsNumeralChar c := by
  cases h with
  | none => exact List.forall_mem_nil _
  | some isMark front digits =>
    intro c hc
    obtain rfl | hc := List.mem_cons.1 hc
    · obtain rfl | rfl := isMark
      · exact .inl (by decide)
      · exact .inl (by decide)
    · obtain hc | hc := List.mem_append.1 hc
      · exact isNumeralChar_of_isSign front c hc
      · exact .inr (.inl (digits.isDigit c hc))

theorem Denotes.isNumeralChar {text : List Char} {x : Float} (h : Denotes text x) :
    ∀ c ∈ text, IsNumeralChar c := by
  cases h with
  | decimal front magnitude hasPower =>
    intro c hc
    obtain hc | hc := List.mem_append.1 hc
    · exact isNumeralChar_of_isSign front c hc
    · obtain hc | hc := List.mem_append.1 hc
      · exact magnitude.isNumeralChar c hc
      · exact hasPower.isNumeralChar c hc
  | word front isWord =>
    intro c hc
    obtain hc | hc := List.mem_append.1 hc
    · exact isNumeralChar_of_isSign front c hc
    · exact .inl (isWord.isAlpha c hc)

theorem Denotes.ne_nil {text : List Char} {x : Float} (h : Denotes text x) : text ≠ [] := by
  cases h with
  | decimal front magnitude =>
    obtain ⟨c, rest, rfl, -⟩ := magnitude.head
    simp
  | word front isWord =>
    obtain ⟨c, rest, rfl, -⟩ := isWord.exists_cons
    simp

end Turnery.Number
