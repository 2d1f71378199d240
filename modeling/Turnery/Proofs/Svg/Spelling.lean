import Turnery.Proofs.Svg.Reading
import Turnery.Proofs.Text.Decimal

/-!
# Spellings of path data

The syntax of path data leaves much open: a letter need not be repeated, and two arguments may be
separated by white space, by a comma with or without white space around it, or by nothing where the
second one starts with a sign, with a point that the first one cannot take, or behind a flag.
`Spells` says when a text is written for a sequence of groups. The tokens of a text are those of its
runs (`tokens_runsText`), so the drawing is told by the groups (`linework_eq_of_spells`), unless a
flag stands right before a digit or a point: the reader knows no flags and takes all of them as one
number (`linework_ne_of_flags`).
-/

namespace Turnery.Svg

/-- What stands at the place of an argument. -/
inductive Place where
  | number
  | flag
  deriving DecidableEq

/-- The places of the arguments of a command. An arc has two flags: whether it is the larger one,
and the way it goes. -/
def Verb.places : Verb → List Place
  | .arc => [.number, .number, .number, .flag, .flag, .number, .number]
  | verb => List.replicate verb.arity .number

namespace PathData

open Number (IsDigits float?)
open Text (IsSign IsSigned EndsDecimal)

/-- White space in path data. -/
def isSpace (c : Char) : Bool :=
  c == ' ' || c == '\t' || c == '\n' || c == '\x0c' || c == '\r'

def IsSpaces (text : List Char) : Prop :=
  ∀ c ∈ text, isSpace c = true

instance (text : List Char) : Decidable (IsSpaces text) :=
  List.decidableBAll (fun c => isSpace c = true) text

/-- White space, or a comma with or without white space around it. -/
inductive IsSeparator : List Char → Prop where
  | spaces {text : List Char} (isSpaces : IsSpaces text) (ne_nil : text ≠ []) : IsSeparator text
  | comma {before behind : List Char} (before_isSpaces : IsSpaces before)
    (behind_isSpaces : IsSpaces behind) :
    IsSeparator (before ++ ',' :: behind)

/-- An exponent or nothing. -/
inductive IsExponent : List Char → Prop where
  | none : IsExponent []
  | some {e : Char} {sign ds : List Char} (mark : e = 'e' ∨ e = 'E') (front : IsSign sign)
    (digits : IsDigits ds) :
    IsExponent (e :: (sign ++ ds))

/-- A decimal with or without an exponent. -/
inductive IsNumber : List Char → Prop where
  | mk {word exponent : List Char} (isSigned : IsSigned word) (isExponent : IsExponent exponent) :
    IsNumber (word ++ exponent)

/-- The text is an argument at a place, and the argument is a double. A flag is a single digit. -/
inductive Writes : Place → List Char → Float → Prop where
  | number {text : List Char} {x : Float} (isNumber : IsNumber text)
    (value : float? text = some x) :
    Writes .number text x
  | flag {digit : Char} {x : Float} (isFlag : digit = '0' ∨ digit = '1')
    (value : float? [digit] = some x) :
    Writes .flag [digit] x

/-- An argument needs no separator before a text that starts with a sign, or with a point if it has
a point or an exponent itself. -/
def Abuts (text rest : List Char) : Prop :=
  ∃ c ∈ rest.head?, c = '+' ∨ c = '-' ∨ c = '.' ∧ ('.' ∈ text ∨ 'e' ∈ text ∨ 'E' ∈ text)

/-- How flags may be written: with nothing behind them, as the syntax has it, or apart from what
follows like any other argument. -/
inductive FlagStyle where
  | any
  | apart
  deriving DecidableEq

variable {style : FlagStyle} {place next : Place} {places : List Place} {x : Float}
  {xs : List Float} {text gap more rest : List Char}

/-- The text is written for some arguments at their places. -/
inductive ArgumentsText (style : FlagStyle) : List Place → List Float → List Char → Prop where
  | none : ArgumentsText style [] [] []
  | last {place : Place} {x : Float} {text : List Char} (writes : Writes place text x) :
    ArgumentsText style [place] [x] text
  | separated {place next : Place} {places : List Place} {x : Float} {xs : List Float}
    {text gap more : List Char}
    (writes : Writes place text x) (isSeparator : IsSeparator gap)
    (others : ArgumentsText style (next :: places) xs more) :
    ArgumentsText style (place :: next :: places) (x :: xs) (text ++ (gap ++ more))
  | joined {place next : Place} {places : List Place} {x : Float} {xs : List Float}
    {text more : List Char}
    (writes : Writes place text x) (abuts : Abuts text more ∨ style = .any ∧ place = .flag)
    (others : ArgumentsText style (next :: places) xs more) :
    ArgumentsText style (place :: next :: places) (x :: xs) (text ++ more)

/-- The text is written for a run: a letter and, one or more times, the arguments of its command. -/
inductive RunText (style : FlagStyle) : Run → List Char → Prop where
  | mk {letter : Char} {command : Command} {gap : List Char} {repetitions : Nat}
    {numbers : List Float} {text : List Char}
    (isLetter : Command.ofLetter? letter = some command) (isSpaces : IsSpaces gap)
    (repeated : 0 < repetitions)
    (arguments : ArgumentsText style (List.replicate repetitions command.verb.places).flatten
      numbers text) :
    RunText style ⟨command, numbers⟩ (letter :: (gap ++ text))

/-- The text is written for some runs, with white space between them. -/
inductive RunsText (style : FlagStyle) : List Run → List Char → Prop where
  | nil {text : List Char} (isSpaces : IsSpaces text) : RunsText style [] text
  | cons {run : Run} {runs : List Run} {gap text more : List Char} (isSpaces : IsSpaces gap)
    (written : RunText style run text) (others : RunsText style runs more) :
    RunsText style (run :: runs) (gap ++ (text ++ more))

/-- The text is a spelling of a sequence of groups. -/
def Spells (style : FlagStyle) (groups : List Group) (text : List Char) : Prop :=
  ∃ runs, RunsText style runs text ∧ runs.flatMap Run.groups = groups

/-- What groups draw. -/
def drawing (groups : List Group) : Linework Float :=
  (Canvas.ofStrokes (strokesOf [] groups)).finish

/-- The number cannot be continued by the text behind it. -/
def NumberEnds (text rest : List Char) : Prop :=
  ∀ c ∈ rest.head?, Text.isDecimalDigit c = false ∧ c ≠ 'e' ∧ c ≠ 'E' ∧
    (c = '.' → '.' ∈ text ∨ 'e' ∈ text ∨ 'E' ∈ text)

theorem not_mem_of_isSigned {word : List Char} (h : IsSigned word) {e : Char}
    (he : e = 'e' ∨ e = 'E') :
    e ∉ word := by
  obtain ⟨c, tail, rfl, hc⟩ := h.exists_cons
  intro hmem
  rcases List.mem_cons.1 hmem with rfl | hmem
  · rcases he with rfl | rfl <;> revert hc <;> decide
  · have hother := h.digit_or_point hmem
    rcases he with rfl | rfl <;> revert hother <;> decide

theorem takeSign_append {sign ds : List Char} (front : IsSign sign) (digits : IsDigits ds)
    (rest : List Char) :
    takeSign (sign ++ (ds ++ rest)) = (sign, ds ++ rest) := by
  obtain ⟨d, tail, rfl⟩ := List.exists_cons_of_ne_nil digits.ne_nil
  have hd := digits.isDigit d List.mem_cons_self
  cases front with
  | none =>
    apply takeSign.eq_3
    · rintro _ ⟨⟩
      exact absurd hd (by decide)
    · rintro _ ⟨⟩
      exact absurd hd (by decide)
  | plus | minus => rfl

theorem takeExponent_append {exponent : List Char} (h : IsExponent exponent)
    (hrest : ∀ c ∈ rest.head?, Text.isDecimalDigit c = false ∧ c ≠ 'e' ∧ c ≠ 'E') :
    takeExponent (exponent ++ rest) = (exponent, rest) := by
  cases h with
  | none =>
    cases rest with
    | nil => rfl
    | cons c tail =>
      obtain ⟨-, hlower, hupper⟩ := hrest c rfl
      simp [takeExponent, hlower, hupper]
  | @some e sign ds mark front digits =>
    have hdigits := Number.takeDigits_append_of_isDigits digits fun c hc => (hrest c hc).1
    rw [List.cons_append, List.append_assoc, takeExponent, takeSign_append front digits]
    simp only [hdigits]
    have hmark : (e == 'e' || e == 'E') = true := by simpa using mark
    simp [hmark, digits.ne_nil]

/-- A number is split off in front of any text that cannot go on it. -/
theorem takeNumber?_append (h : IsNumber text) (hrest : NumberEnds text rest) :
    takeNumber? (text ++ rest) = some (text, rest) := by
  obtain @⟨word, exponent, isSigned, isExponent⟩ := h
  have hends : EndsDecimal word (exponent ++ rest) := by
    intro c hc
    cases isExponent with
    | none =>
      obtain ⟨hdigit, -, -, hpoint⟩ := hrest c hc
      refine ⟨hdigit, fun heq => ?_⟩
      rw [List.append_nil] at hpoint
      rcases hpoint heq with hmem | hmem | hmem
      · exact hmem
      · exact absurd hmem (not_mem_of_isSigned isSigned (.inl rfl))
      · exact absurd hmem (not_mem_of_isSigned isSigned (.inr rfl))
    | some mark =>
      obtain rfl := Option.some.inj hc
      rcases mark with rfl | rfl <;> exact ⟨by decide, by simp⟩
  have htake := takeExponent_append isExponent fun c hc =>
    ⟨(hrest c hc).1, (hrest c hc).2.1, (hrest c hc).2.2.1⟩
  rw [takeNumber?, List.append_assoc, Text.takeDecimal?_append_of_isSigned isSigned hends,
    Option.map_some]
  dsimp only
  rw [htake]

theorem ofLetter?_of_isNumber (h : IsNumber text) :
    ∃ c tail, text = c :: tail ∧ Command.ofLetter? c = none := by
  obtain @⟨word, exponent, isSigned, isExponent⟩ := h
  obtain ⟨c, tail, rfl, hc⟩ := isSigned.exists_cons
  refine ⟨c, tail ++ exponent, rfl, ?_⟩
  unfold Command.ofLetter?
  split <;> first | rfl | exact absurd hc (by decide)

theorem isNumber_digit {digit : Char} (h : digit.isDigit = true) : IsNumber [digit] := by
  have hdigits : IsDigits [digit] := ⟨List.cons_ne_nil _ _, by simpa using h⟩
  exact IsNumber.mk (IsSigned.mk .none (.whole hdigits)) .none

theorem Writes.isNumber (h : Writes place text x) : IsNumber text := by
  cases h with
  | number isNumber => exact isNumber
  | flag isFlag => exact isNumber_digit (by rcases isFlag with rfl | rfl <;> rfl)

theorem Writes.value_eq (h : Writes place text x) : float? text = some x := by
  cases h <;> assumption

/-- An argument is one number, whatever its place. -/
theorem tokens_argument (h : Writes place text x) (hrest : NumberEnds text rest) :
    tokens (text ++ rest) = .number x :: tokens rest := by
  have htake := takeNumber?_append h.isNumber hrest
  obtain ⟨c, tail, rfl, hletter⟩ := ofLetter?_of_isNumber h.isNumber
  exact tokens_lexeme hletter htake h.value_eq

theorem tokens_space {c : Char} (hc : isSpace c = true) : tokens (c :: rest) = tokens rest := by
  simp only [isSpace, Bool.or_eq_true, beq_iff_eq] at hc
  rcases hc with (((rfl | rfl) | rfl) | rfl) | rfl <;> exact tokens_skip rfl rfl

theorem tokens_spaces (h : IsSpaces gap) : tokens (gap ++ rest) = tokens rest := by
  induction gap with
  | nil => rfl
  | cons c gap ih =>
    obtain ⟨hc, hgap⟩ := List.forall_mem_cons.1 h
    rw [List.cons_append, tokens_space hc, ih hgap]

theorem tokens_separator (h : IsSeparator gap) : tokens (gap ++ rest) = tokens rest := by
  cases h with
  | spaces isSpaces => exact tokens_spaces isSpaces
  | comma before_isSpaces behind_isSpaces =>
    rw [List.append_assoc, tokens_spaces before_isSpaces, List.cons_append, tokens_skip rfl rfl,
      tokens_spaces behind_isSpaces]

/-- No number can be continued by what is neither digit nor point nor the mark of an exponent. -/
theorem numberEnds_of_head
    (h : ∀ c ∈ rest.head?, Text.isDecimalDigit c = false ∧ c ∉ ['e', 'E', '.']) :
    NumberEnds text rest := by
  intro c hc
  obtain ⟨hdigit, hmark⟩ := h c hc
  simp only [List.mem_cons, List.not_mem_nil, or_false, not_or] at hmark
  exact ⟨hdigit, hmark.1, hmark.2.1, fun heq => absurd heq hmark.2.2⟩

theorem not_digit_of_isSpace {c : Char} (hc : isSpace c = true) :
    Text.isDecimalDigit c = false ∧ c ∉ ['e', 'E', '.'] := by
  simp only [isSpace, Bool.or_eq_true, beq_iff_eq] at hc
  rcases hc with (((rfl | rfl) | rfl) | rfl) | rfl <;> decide

theorem IsSeparator.numberEnds (h : IsSeparator gap) : NumberEnds text (gap ++ rest) := by
  apply numberEnds_of_head
  intro c hc
  have hhead : isSpace c = true ∨ c = ',' := by
    cases h with
    | spaces isSpaces ne_nil =>
      obtain ⟨first, tail, rfl⟩ := List.exists_cons_of_ne_nil ne_nil
      obtain rfl := Option.some.inj hc
      exact .inl (isSpaces first List.mem_cons_self)
    | @comma before _ before_isSpaces =>
      cases before with
      | nil => exact .inr (Option.some.inj hc).symm
      | cons first tail =>
        obtain rfl := Option.some.inj hc
        exact .inl (before_isSpaces first List.mem_cons_self)
  rcases hhead with hspace | rfl
  · exact not_digit_of_isSpace hspace
  · decide

theorem Abuts.numberEnds (h : Abuts text more) : NumberEnds text (more ++ rest) := by
  obtain ⟨first, hfirst, hc⟩ := h
  obtain ⟨tail, rfl⟩ := List.head?_eq_some_iff.1 hfirst
  intro c hhead
  obtain rfl := Option.some.inj hhead
  rcases hc with rfl | rfl | ⟨rfl, hpoint⟩
  · exact ⟨by decide, by decide, by decide, fun heq => absurd heq (by decide)⟩
  · exact ⟨by decide, by decide, by decide, fun heq => absurd heq (by decide)⟩
  · exact ⟨by decide, by decide, by decide, fun _ => hpoint⟩

/-- The text is at its end, or goes on with white space or with the letter of a command. -/
def EndsArguments (rest : List Char) : Prop :=
  ∀ c ∈ rest.head?, isSpace c = true ∨ ∃ command, Command.ofLetter? c = some command

theorem not_digit_of_letter {c : Char} {command : Command}
    (h : Command.ofLetter? c = some command) :
    Text.isDecimalDigit c = false ∧ c ∉ ['e', 'E', '.'] := by
  unfold Command.ofLetter? at h
  split at h <;> first | decide | cases h

theorem EndsArguments.numberEnds (h : EndsArguments rest) : NumberEnds text rest := by
  apply numberEnds_of_head
  intro c hc
  rcases h c hc with hspace | ⟨command, hletter⟩
  · exact not_digit_of_isSpace hspace
  · exact not_digit_of_letter hletter

/-- Arguments are read as one number each, unless a flag stands right before the next argument. -/
theorem tokens_argumentsText (h : ArgumentsText style places xs text)
    (hflags : style = .any → Place.flag ∉ places) (hrest : EndsArguments rest) :
    tokens (text ++ rest) = xs.map Token.number ++ tokens rest := by
  induction h with
  | none => rfl
  | last writes => exact tokens_argument writes hrest.numberEnds
  | separated writes isSeparator _ ih =>
    have hothers : style = .any → Place.flag ∉ _ :=
      fun hstyle hmem => hflags hstyle (List.mem_cons_of_mem _ hmem)
    rw [List.append_assoc, List.append_assoc, tokens_argument writes isSeparator.numberEnds,
      tokens_separator isSeparator, ih hothers]
    rfl
  | @joined _ _ _ _ _ text more writes abuts _ ih =>
    have hothers : style = .any → Place.flag ∉ _ :=
      fun hstyle hmem => hflags hstyle (List.mem_cons_of_mem _ hmem)
    have habuts : Abuts text more := by
      rcases abuts with habuts | ⟨hstyle, rfl⟩
      · exact habuts
      · exact absurd List.mem_cons_self (hflags hstyle)
    rw [List.append_assoc, tokens_argument writes habuts.numberEnds, ih hothers]
    rfl

def Run.tokens (run : Run) : List Token :=
  .command run.command :: run.numbers.map Token.number

/-- Only an arc has flags. -/
theorem not_mem_places {verb : Verb} (h : verb ≠ .arc) : Place.flag ∉ verb.places := by
  cases verb <;> first | exact absurd rfl h | decide

theorem tokens_runText {run : Run} (h : RunText style run text)
    (hflags : style = .any → run.command.verb ≠ .arc) (hrest : EndsArguments rest) :
    PathData.tokens (text ++ rest) = run.tokens ++ PathData.tokens rest := by
  obtain @⟨letter, command, gap, repetitions, numbers, text, isLetter, isSpaces, -, arguments⟩ := h
  have hplaces : style = .any →
      Place.flag ∉ (List.replicate repetitions command.verb.places).flatten := by
    intro hstyle hmem
    obtain ⟨places, hplaces, hflag⟩ := List.mem_flatten.1 hmem
    rw [List.eq_of_mem_replicate hplaces] at hflag
    exact not_mem_places (hflags hstyle) hflag
  rw [List.cons_append, List.append_assoc, tokens_letter isLetter, tokens_spaces isSpaces,
    tokens_argumentsText arguments hplaces hrest]
  rfl

theorem RunsText.endsArguments {runs : List Run} (h : RunsText style runs text) :
    EndsArguments text := by
  intro c hc
  cases h with
  | nil isSpaces => exact .inl (isSpaces c (List.mem_of_head? hc))
  | @cons run runs gap text more isSpaces written =>
    cases gap with
    | nil =>
      obtain ⟨isLetter⟩ := written
      obtain rfl := Option.some.inj hc
      exact .inr ⟨_, isLetter⟩
    | cons first gap =>
      obtain rfl := Option.some.inj hc
      exact .inl (isSpaces first List.mem_cons_self)

theorem length_places (verb : Verb) : verb.places.length = verb.arity := by
  cases verb <;> rfl

theorem ArgumentsText.length_eq (h : ArgumentsText style places xs text) :
    xs.length = places.length := by
  induction h with
  | none | last => rfl
  | separated _ _ _ ih | joined _ _ _ ih => simp only [List.length_cons, ih]

/-- A run has the group of its own command, and possibly repetitions of it. -/
theorem RunText.command_mem_groups {run : Run} (h : RunText style run text) :
    ∃ group ∈ run.groups, group.command = run.command := by
  obtain @⟨letter, command, gap, repetitions, numbers, text, -, -, repeated, arguments⟩ := h
  by_cases hclose : command.verb = .close
  · rw [groups_close hclose]
    exact ⟨_, List.mem_singleton_self _, rfl⟩
  · have hlength := arguments.length_eq
    rw [List.length_flatten, List.map_replicate, List.sum_replicate, smul_eq_mul, length_places]
      at hlength
    have hle : command.verb.arity ≤ numbers.length := hlength ▸ Nat.le_mul_of_pos_left _ repeated
    have hfirst : (numbers.take command.verb.arity).length = command.verb.arity :=
      List.length_take_of_le hle
    rw [← List.take_append_drop command.verb.arity numbers, groups_append _ hclose hfirst]
    exact ⟨_, List.mem_cons_self, rfl⟩

/-- The tokens of a spelling are those of its runs, unless a flag stands right before the next
argument. -/
theorem tokens_runsText {runs : List Run} (h : RunsText style runs text)
    (hflags : style = .any → ∀ group ∈ runs.flatMap Run.groups, group.command.verb ≠ .arc) :
    tokens text = runs.flatMap Run.tokens := by
  induction h with
  | @nil text isSpaces =>
    have hspaces : tokens (text ++ []) = tokens [] := tokens_spaces isSpaces
    rwa [List.append_nil, tokens] at hspaces
  | @cons run runs gap text more isSpaces written others ih =>
    rw [List.flatMap_cons, List.forall_mem_append] at hflags
    have hrun : style = .any → run.command.verb ≠ .arc := by
      intro hstyle
      obtain ⟨group, hgroup, hcommand⟩ := written.command_mem_groups
      exact hcommand ▸ (hflags hstyle).1 group hgroup
    rw [tokens_spaces isSpaces, tokens_runText written hrun others.endsArguments,
      ih fun hstyle => (hflags hstyle).2, List.flatMap_cons]

theorem leadingNumbers_numbers (xs : List Float) (read : List Token) :
    leadingNumbers (xs.map Token.number ++ read) = xs ++ leadingNumbers read := by
  induction xs with
  | nil => rfl
  | cons x xs ih => exact congrArg (x :: ·) ih

theorem runs_numbers (xs : List Float) (read : List Token) :
    runs (xs.map Token.number ++ read) = runs read := by
  induction xs with
  | nil => rfl
  | cons x xs ih => exact ih

theorem leadingNumbers_flatMap (written : List Run) :
    leadingNumbers (written.flatMap Run.tokens) = [] := by
  cases written <;> rfl

/-- Runs are read back from their tokens. -/
theorem runs_flatMap (written : List Run) : runs (written.flatMap Run.tokens) = written := by
  induction written with
  | nil => rfl
  | cons run others ih =>
    rw [List.flatMap_cons, Run.tokens, List.cons_append, runs, leadingNumbers_numbers,
      runs_numbers, ih, leadingNumbers_flatMap, List.append_nil]

/-- A spelling draws its groups, unless a flag stands right before the next argument. -/
theorem linework_of_spells {groups : List Group} (h : Spells style groups text)
    (hflags : style = .any → ∀ group ∈ groups, group.command.verb ≠ .arc) :
    linework text = drawing groups := by
  obtain ⟨written, htext, rfl⟩ := h
  rw [linework_eq_finish, strokes_eq_reading, reading, tokens_runsText htext hflags, runs_flatMap]
  rfl

/-- All spellings of a sequence of groups give the same linework, the drawing of the groups, as long
as no flag of an arc is written without a separator before an argument that could continue it as a
number. -/
theorem linework_eq_of_spells {groups : List Group} {other : List Char}
    (h : Spells style groups text) (hother : Spells style groups other)
    (hflags : style = .any → ∀ group ∈ groups, group.command.verb ≠ .arc) :
    linework text = linework other ∧ linework text = drawing groups := by
  have htext := linework_of_spells h hflags
  exact ⟨htext.trans (linework_of_spells hother hflags).symm, htext⟩

theorem isSpaces_nil : IsSpaces [] :=
  List.forall_mem_nil _

/-- A letter with the arguments of its command right behind it. -/
theorem runText_once {letter : Char} {command : Command}
    (isLetter : Command.ofLetter? letter = some command)
    (arguments : ArgumentsText style command.verb.places xs text) :
    RunText style ⟨command, xs⟩ (letter :: text) := by
  have hplaces : (List.replicate 1 command.verb.places).flatten = command.verb.places := by simp
  exact .mk isLetter isSpaces_nil Nat.one_pos (hplaces.symm ▸ arguments)

/-- Runs with no white space around them. -/
theorem runsText_cons {run : Run} {others : List Run} (written : RunText style run text)
    (h : RunsText style others more) : RunsText style (run :: others) (text ++ more) :=
  .cons isSpaces_nil written h

theorem runsText_singleton {run : Run} (written : RunText style run text) :
    RunsText style [run] text := by
  have hruns := runsText_cons written (.nil isSpaces_nil)
  rwa [List.append_nil] at hruns

/-- Without any separator, and with a comma and white space. -/
theorem linework_eq_of_spells_compact :
    let groups : List Group := [⟨⟨.moveTo, false⟩, [1, -5]⟩, ⟨⟨.lineTo, false⟩, [0.5, 0.5]⟩]
    Spells .any groups "M1-5L.5.5".toList ∧ Spells .any groups "M1, -5L.5 .5".toList ∧
      linework "M1-5L.5.5".toList = linework "M1, -5L.5 .5".toList := by
  intro groups
  have hminus : IsSigned (['-'] ++ ['5']) := .mk .minus (.whole ⟨by decide, by simp⟩)
  have hpoint : IsSigned ([] ++ ([] ++ '.' :: ['5'])) :=
    .mk .none (.pointed (by simp) (by simp) (by simp))
  have one : Writes .number ['1'] 1 := .number (isNumber_digit rfl) (by decide +kernel)
  have minusFive : Writes .number ['-', '5'] (-5) := .number (.mk hminus .none) (by decide +kernel)
  have half : Writes .number ['.', '5'] 0.5 := .number (.mk hpoint .none) (by decide +kernel)
  have comma : IsSeparator ([] ++ ',' :: [' ']) := .comma (by decide) (by decide)
  have blank : IsSeparator [' '] := .spaces (by decide) (by decide)
  have compact : Spells .any groups "M1-5L.5.5".toList := by
    have move : RunText .any ⟨⟨.moveTo, false⟩, [1, -5]⟩ ['M', '1', '-', '5'] :=
      runText_once rfl (.joined one (.inl ⟨'-', rfl, by decide⟩) (.last minusFive))
    have line : RunText .any ⟨⟨.lineTo, false⟩, [0.5, 0.5]⟩ ['L', '.', '5', '.', '5'] :=
      runText_once rfl (.joined half (.inl ⟨'.', rfl, by decide⟩) (.last half))
    exact ⟨_, runsText_cons move (runsText_singleton line), rfl⟩
  have spaced : Spells .any groups "M1, -5L.5 .5".toList := by
    have move : RunText .any ⟨⟨.moveTo, false⟩, [1, -5]⟩ ['M', '1', ',', ' ', '-', '5'] :=
      runText_once rfl (.separated one comma (.last minusFive))
    have line : RunText .any ⟨⟨.lineTo, false⟩, [0.5, 0.5]⟩ ['L', '.', '5', ' ', '.', '5'] :=
      runText_once rfl (.separated half blank (.last half))
    exact ⟨_, runsText_cons move (runsText_singleton line), rfl⟩
  exact ⟨compact, spaced, (linework_eq_of_spells compact spaced fun _ => by decide).1⟩

/-- Where flags stand right before the next argument, they are read with it as one number. The arc
is left without its last arguments, and the line behind it counts from where the arc began. -/
theorem linework_ne_of_flags :
    let groups : List Group := [⟨⟨.moveTo, false⟩, [0, 0]⟩, ⟨⟨.arc, true⟩, [5, 5, 0, 0, 1, 5, 0]⟩,
      ⟨⟨.lineTo, true⟩, [1, 1]⟩]
    Spells .any groups "M0 0a5 5 0 015 0l1 1".toList ∧
      Spells .any groups "M0 0a5 5 0 0 1 5 0l1 1".toList ∧
      (linework "M0 0a5 5 0 015 0l1 1".toList).polylines = [⟨[⟨0, 0⟩, ⟨1, 1⟩]⟩] ∧
      (linework "M0 0a5 5 0 0 1 5 0l1 1".toList).polylines = [⟨[⟨0, 0⟩, ⟨6, 1⟩]⟩] := by
  intro groups
  have zero : Writes .number ['0'] 0 := .number (isNumber_digit rfl) (by decide +kernel)
  have one : Writes .number ['1'] 1 := .number (isNumber_digit rfl) (by decide +kernel)
  have five : Writes .number ['5'] 5 := .number (isNumber_digit rfl) (by decide +kernel)
  have small : Writes .flag ['0'] 0 := .flag (.inl rfl) zero.value_eq
  have sweep : Writes .flag ['1'] 1 := .flag (.inr rfl) one.value_eq
  have blank : IsSeparator [' '] := .spaces (by decide) (by decide)
  have move : RunText .any ⟨⟨.moveTo, false⟩, [0, 0]⟩ ['M', '0', ' ', '0'] :=
    runText_once rfl (.separated zero blank (.last zero))
  have line : RunText .any ⟨⟨.lineTo, true⟩, [1, 1]⟩ ['l', '1', ' ', '1'] :=
    runText_once rfl (.separated one blank (.last one))
  have crammed : RunText .any ⟨⟨.arc, true⟩, [5, 5, 0, 0, 1, 5, 0]⟩ "a5 5 0 015 0".toList :=
    runText_once rfl (.separated five blank (.separated five blank (.separated zero blank
      (.joined small (.inr ⟨rfl, rfl⟩)
        (.joined sweep (.inr ⟨rfl, rfl⟩) (.separated five blank (.last zero)))))))
  have apart : RunText .any ⟨⟨.arc, true⟩, [5, 5, 0, 0, 1, 5, 0]⟩ "a5 5 0 0 1 5 0".toList :=
    runText_once rfl (.separated five blank (.separated five blank (.separated zero blank
      (.separated small blank (.separated sweep blank (.separated five blank (.last zero)))))))
  refine ⟨⟨_, runsText_cons move (runsText_cons crammed (runsText_singleton line)), rfl⟩,
    ⟨_, runsText_cons move (runsText_cons apart (runsText_singleton line)), rfl⟩, ?_, ?_⟩
  · decide +kernel
  · decide +kernel

end PathData

end Turnery.Svg
