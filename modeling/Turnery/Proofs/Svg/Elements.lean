import Turnery.Proofs.Geometry.Populated
import Turnery.Proofs.Svg.Strokes
import Turnery.Proofs.Text.Trim
import Turnery.Svg.Document

/-!
# Documents by elements

A document is a sequence of `path` elements with other text between them, and an element is a
sequence of attributes. `linework_of_document` says that the reader, which knows nothing of
attributes, finds the value of the first `d` attribute of every element and nothing else, as long as
no value in front of that attribute deceives it. A value can do so in two ways
(`linework_of_deceptive_values`): a closing bracket in it is taken for the end of the element, and
text like the start of a `d` attribute is taken for one.
-/

namespace Turnery.Svg.Document

def IsBlanks (gap : List Char) : Prop :=
  ∀ c ∈ gap, Text.isBlank c = true

instance (gap : List Char) : Decidable (IsBlanks gap) :=
  List.decidableBAll (fun c => Text.isBlank c = true) gap

inductive Quote where
  | double
  | single
  deriving DecidableEq

def Quote.mark : Quote → Char
  | .double => '"'
  | .single => '\''

/-- A name has no blanks, no sign, no quotation marks and no brackets. -/
def IsName (name : List Char) : Prop :=
  name ≠ [] ∧ ∀ c ∈ name, Text.isBlank c = false ∧ c ∉ ['=', '"', '\'', '<', '>']

instance (name : List Char) : Decidable (IsName name) :=
  haveI :=
    List.decidableBAll (fun c => Text.isBlank c = false ∧ c ∉ ['=', '"', '\'', '<', '>']) name
  inferInstanceAs (Decidable (_ ∧ _))

/-- A value has no opening bracket and not its own quotation mark. -/
def IsValue (quote : Quote) (value : List Char) : Prop :=
  ∀ c ∈ value, c ≠ '<' ∧ c ≠ quote.mark

instance (quote : Quote) (value : List Char) : Decidable (IsValue quote value) :=
  List.decidableBAll (fun c => c ≠ '<' ∧ c ≠ quote.mark) value

/-- An attribute with the blanks in front of it: a name, a sign with or without blanks around it,
and a value in quotes. -/
structure Attribute where
  space : List Char := [' ']
  name : List Char
  beforeSign : List Char := []
  behindSign : List Char := []
  quote : Quote := .double
  value : List Char
  space_ne_nil : space ≠ [] := by decide
  space_isBlanks : IsBlanks space := by decide
  name_isName : IsName name := by decide
  beforeSign_isBlanks : IsBlanks beforeSign := by decide
  behindSign_isBlanks : IsBlanks behindSign := by decide
  value_isValue : IsValue quote value := by decide

/-- The value with its closing quotation mark. -/
def Attribute.quoted (attr : Attribute) : List Char :=
  attr.value ++ [attr.quote.mark]

/-- What stands between the name and the value. -/
def Attribute.sign (attr : Attribute) : List Char :=
  attr.beforeSign ++ '=' :: (attr.behindSign ++ [attr.quote.mark])

def Attribute.text (attr : Attribute) : List Char :=
  attr.space ++ (attr.name ++ (attr.sign ++ attr.quoted))

/-- A `path` element. -/
structure Element where
  attributes : List Attribute
  /-- The blanks behind the attributes. -/
  space : List Char := []
  /-- The element has no content: it ends with a slash and a bracket. -/
  isClosed : Bool
  space_isBlanks : IsBlanks space := by decide

def startText : List Char :=
  ['<', 'p', 'a', 't', 'h']

def Element.slash (element : Element) : List Char :=
  if element.isClosed then ['/'] else []

/-- What stands behind the start. -/
def Element.inner (element : Element) : List Char :=
  element.attributes.flatMap Attribute.text ++ (element.space ++ (element.slash ++ ['>']))

def Element.text (element : Element) : List Char :=
  startText ++ element.inner

def Attribute.isData (attr : Attribute) : Bool :=
  attr.name == ['d']

/-- The value of the first `d` attribute. -/
def dataOf? (attributes : List Attribute) : Option (List Char) :=
  (attributes.find? Attribute.isData).map Attribute.value

theorem dataOf?_cons_of_isData {attr : Attribute} (h : attr.isData = true)
    (others : List Attribute) :
    dataOf? (attr :: others) = some attr.value := by
  rw [dataOf?, List.find?_cons_of_pos h, Option.map_some]

theorem dataOf?_cons_of_isOther {attr : Attribute} (h : attr.isData = false)
    (others : List Attribute) :
    dataOf? (attr :: others) = dataOf? others := by
  rw [dataOf?, dataOf?, List.find?_cons_of_neg (by rw [h]; exact Bool.false_ne_true)]

def Element.data? (element : Element) : Option (List Char) :=
  dataOf? element.attributes

/-- The text is made of some elements and of text without the start of an element between them. -/
inductive DocumentText : List Element → List Char → Prop where
  | nil {text : List Char} (plain : ¬startText <:+: text) : DocumentText [] text
  | cons {element : Element} {elements : List Element} {before rest : List Char}
    (plain : ¬startText <:+: before)
    (others : DocumentText elements rest) :
      DocumentText (element :: elements) (before ++ (element.text ++ rest))

/-- The start of a `d` attribute up to its opening quotation mark. -/
inductive IsOpening : List Char → Prop where
  | mk {blank : Char} {before behind : List Char} {mark : Char}
    (isBlank : Text.isBlank blank = true) (before_isBlanks : IsBlanks before)
    (behind_isBlanks : IsBlanks behind) (isMark : mark = '"' ∨ mark = '\'') :
    IsOpening (blank :: 'd' :: (before ++ '=' :: behind) ++ [mark])

/-- The text holds something like the start of a `d` attribute. -/
def HoldsOpening (text : List Char) : Prop :=
  ∃ opening, IsOpening opening ∧ opening <:+: text

/-- No value deceives the reader on its way to the `d` attribute: none holds a closing bracket,
unless there is no such attribute behind it, and none holds something like the start of that
attribute, its own closing quotation mark included. Where the reader meets a closing bracket it
looks no further. -/
inductive IsPlain : List Attribute → Prop where
  | nil : IsPlain []
  | data {attr : Attribute} {others : List Attribute} (isData : attr.isData = true) :
    IsPlain (attr :: others)
  | other {attr : Attribute} {others : List Attribute} (isOther : attr.isData = false)
    (noOpening : ¬HoldsOpening attr.quoted) (noBracket : '>' ∉ attr.value)
    (plain : IsPlain others) : IsPlain (attr :: others)
  | ended {attr : Attribute} {others : List Attribute} {before behind : List Char}
    (isOther : attr.isData = false) (value_eq : attr.value = before ++ '>' :: behind)
    (noOpening : ¬HoldsOpening before) (noData : dataOf? others = none) : IsPlain (attr :: others)

variable {c : Char} {text front rest gap : List Char} {attr : Attribute}

theorem takeAttribute?_of_head (h : text.head? ≠ some 'd') : takeAttribute? (c :: text) = none := by
  unfold takeAttribute?
  split
  · rename_i heq
    obtain ⟨-, rfl⟩ := List.cons.inj heq
    exact absurd rfl h
  · rfl

theorem takeAttribute?_of_not_blank (h : Text.isBlank c = false) :
    takeAttribute? (c :: text) = none := by
  unfold takeAttribute?
  split
  · rename_i heq
    obtain ⟨rfl, -⟩ := List.cons.inj heq
    rw [h]
    rfl
  · rfl

theorem trimStart_append (h : IsBlanks gap) (hc : Text.isBlank c = false) (rest : List Char) :
    Text.trimStart (gap ++ c :: rest) = c :: rest := by
  rw [Text.trimStart_append_of_isBlank h, Text.trimStart_cons_of_not_isBlank hc]

/-- Whatever the reader takes as an attribute opens like one. -/
theorem exists_isOpening {found : List Char × List Char} (h : takeAttribute? text = some found) :
    ∃ opening, IsOpening opening ∧ opening <+: text := by
  unfold takeAttribute? at h
  split at h
  · rename_i blank afterName
    split at h
    · rename_i hblank
      split at h
      · rename_i afterSign hname
        obtain ⟨before, hbefore, hafter⟩ := Text.exists_blanks_append_trimStart afterName
        obtain ⟨behind, hbehind, hvalue⟩ := Text.exists_blanks_append_trimStart afterSign
        have hopening : ∀ {mark : Char} {value : List Char}, (mark = '"' ∨ mark = '\'') →
            Text.trimStart afterSign = mark :: value →
            ∃ opening, IsOpening opening ∧ opening <+: blank :: 'd' :: afterName := by
          intro mark value hmark htrim
          refine ⟨_, .mk hblank hbefore hbehind hmark, value, ?_⟩
          rw [hafter, hname, hvalue, htrim]
          simp
        split at h
        · rename_i htrim
          exact hopening (.inl rfl) htrim
        · rename_i htrim
          exact hopening (.inr rfl) htrim
        · cases h
      · cases h
    · cases h
  · cases h

/-- No attribute opens in the front part of a text. -/
def Quiet : List Char → List Char → Prop
  | [], _ => True
  | c :: front, rest => takeAttribute? (c :: (front ++ rest)) = none ∧ Quiet front rest

theorem quiet_append {other : List Char} (h : Quiet front (other ++ rest))
    (hother : Quiet other rest) :
    Quiet (front ++ other) rest := by
  induction front with
  | nil => exact hother
  | cons c front ih =>
    obtain ⟨hfirst, hothers⟩ := h
    refine ⟨?_, ih hothers⟩
    rwa [← List.append_assoc] at hfirst

theorem quiet_of_not_blank (h : ∀ c ∈ front, Text.isBlank c = false) : Quiet front rest := by
  induction front with
  | nil => trivial
  | cons c front ih =>
    obtain ⟨hfirst, hothers⟩ := List.forall_mem_cons.1 h
    exact ⟨takeAttribute?_of_not_blank hfirst, ih hothers⟩

/-- Of some blanks only the last one can open an attribute. -/
theorem quiet_of_isBlanks (h : IsBlanks front)
    (hlast : ∀ blank, Text.isBlank blank = true → takeAttribute? (blank :: rest) = none) :
    Quiet front rest := by
  induction front with
  | nil => trivial
  | cons c front ih =>
    obtain ⟨hfirst, hothers⟩ := List.forall_mem_cons.1 h
    refine ⟨?_, ih hothers⟩
    cases front with
    | nil => exact hlast c hfirst
    | cons next front =>
      apply takeAttribute?_of_head
      rintro ⟨⟩
      exact absurd (hothers 'd' List.mem_cons_self) (by decide)

/-- Text without closing bracket in which nothing opens is passed over. -/
theorem findAttribute?_append (h : Quiet front rest) (hbracket : '>' ∉ front) :
    findAttribute? (front ++ rest) = findAttribute? rest := by
  induction front with
  | nil => rfl
  | cons c front ih =>
    obtain ⟨hfirst, hothers⟩ := h
    rw [List.mem_cons, not_or] at hbracket
    have hc : (c == '>') = false := beq_eq_false_iff_ne.2 (Ne.symm hbracket.1)
    rw [List.cons_append, findAttribute?, hfirst]
    dsimp only
    rw [hc]
    exact ih hothers hbracket.2

/-- Where nothing opens before a closing bracket nothing is found. -/
theorem findAttribute?_eq_none (h : Quiet front rest) (hbracket : '>' ∈ front) :
    findAttribute? (front ++ rest) = none := by
  induction front with
  | nil => cases hbracket
  | cons c front ih =>
    obtain ⟨hfirst, hothers⟩ := h
    rw [List.cons_append, findAttribute?, hfirst]
    dsimp only
    split
    · rfl
    · rename_i hc
      rw [List.mem_cons] at hbracket
      exact ih hothers (hbracket.resolve_left fun heq => hc (beq_iff_eq.2 heq.symm))

/-- The character has no place in an opening, except at its end. -/
def Ends (c : Char) : Prop :=
  Text.isBlank c = false ∧ c ≠ 'd' ∧ c ≠ '='

theorem ends_mark (quote : Quote) : Ends quote.mark := by
  cases quote <;> exact ⟨by decide, by decide, by decide⟩

theorem ends_bracket : Ends '>' :=
  ⟨by decide, by decide, by decide⟩

theorem not_mem_of_isBlanks (h : IsBlanks gap) (hc : Text.isBlank c = false) : c ∉ gap := by
  intro hmem
  rw [h c hmem] at hc
  cases hc

/-- An opening that starts in text up to such a character ends in it. -/
theorem IsOpening.prefix_of_append {opening : List Char} (h : IsOpening opening) (hc : Ends c)
    (hfront : opening <+: front ++ [c] ++ rest) : opening <+: front ++ [c] := by
  rcases List.prefix_or_prefix_of_prefix hfront (List.prefix_append _ rest) with hshort | hlong
  · exact hshort
  obtain @⟨blank, before, behind, mark, isBlank, before_isBlanks, behind_isBlanks, -⟩ := h
  obtain ⟨hblank, hletter, hsign⟩ := hc
  have hstart : c ∉ blank :: 'd' :: (before ++ '=' :: behind) := by
    simp only [List.mem_cons, List.mem_append, not_or]
    refine ⟨?_, hletter, not_mem_of_isBlanks before_isBlanks hblank, hsign,
      not_mem_of_isBlanks behind_isBlanks hblank⟩
    rintro rfl
    rw [isBlank] at hblank
    cases hblank
  rcases List.prefix_concat_iff.1 hlong with heq | hinside
  · exact heq ▸ List.prefix_refl _
  · exact absurd (hinside.mem (by simp)) hstart

/-- Nothing opens in text up to such a character if it holds no opening. -/
theorem quiet_concat (hc : Ends c) (h : ¬HoldsOpening (front ++ [c])) :
    Quiet (front ++ [c]) rest := by
  induction front with
  | nil => exact quiet_of_not_blank (List.forall_mem_singleton.2 hc.1)
  | cons first front ih =>
    constructor
    · cases htake : takeAttribute? (first :: (front.append [c] ++ rest)) with
      | none => rfl
      | some found =>
        obtain ⟨opening, hopening, hfront⟩ := exists_isOpening htake
        have hinside : opening <+: (first :: front) ++ [c] := hopening.prefix_of_append hc hfront
        exact absurd ⟨opening, hopening, hinside.isInfix⟩ h
    · apply ih
      rintro ⟨opening, hopening, hpart⟩
      exact h ⟨opening, hopening, List.infix_cons hpart⟩

/-- An opening does not end with a bracket. -/
theorem holdsOpening_of_concat_bracket (h : HoldsOpening (front ++ ['>'])) :
    HoldsOpening front := by
  obtain ⟨opening, hopening, hpart⟩ := h
  refine ⟨opening, hopening, (List.infix_concat_iff.1 hpart).resolve_left ?_⟩
  rintro ⟨more, heq⟩
  obtain ⟨-, -, -, isMark⟩ := hopening
  rw [← List.append_assoc] at heq
  obtain rfl := List.singleton_inj.1 (List.append_inj' heq rfl).2
  exact absurd isMark (by decide)

/-- Nothing opens at a blank before a name, unless the name is that of the data. -/
theorem takeAttribute?_name (hdata : attr.isData = false) (blank : Char) :
    takeAttribute? (blank :: (attr.name ++ rest)) = none := by
  cases htake : takeAttribute? (blank :: (attr.name ++ rest)) with
  | none => rfl
  | some found =>
    exfalso
    obtain ⟨_, @⟨_, before, behind, mark, -, before_isBlanks, -, -⟩, tail, heq⟩ :=
      exists_isOpening htake
    obtain ⟨first, name, hname⟩ := List.exists_cons_of_ne_nil attr.name_isName.1
    have hplain := attr.name_isName.2
    rw [hname] at heq hplain
    simp only [List.cons_append, List.append_assoc, List.cons.injEq] at heq
    obtain ⟨-, rfl, heq⟩ := heq
    cases name with
    | nil => simp [Attribute.isData, hname] at hdata
    | cons next name =>
      -- Behind the letter there is neither a blank nor the sign.
      obtain ⟨hblank, hsign⟩ := hplain next (by simp)
      cases before with
      | nil =>
        obtain rfl := (List.cons.inj heq).1
        simp at hsign
      | cons other before =>
        obtain rfl := (List.cons.inj heq).1
        exact not_mem_of_isBlanks before_isBlanks hblank List.mem_cons_self

theorem quiet_sign (attr : Attribute) : Quiet attr.sign rest := by
  have hmark : Quiet [attr.quote.mark] rest :=
    quiet_of_not_blank (List.forall_mem_singleton.2 (ends_mark _).1)
  have hbehind : Quiet (attr.behindSign ++ [attr.quote.mark]) rest := by
    refine quiet_append (quiet_of_isBlanks attr.behindSign_isBlanks fun blank _ =>
      takeAttribute?_of_head ?_) hmark
    exact fun heq => (ends_mark attr.quote).2.1 (Option.some.inj heq)
  have hsign : Quiet ('=' :: (attr.behindSign ++ [attr.quote.mark])) rest :=
    ⟨takeAttribute?_of_not_blank (by decide), hbehind⟩
  refine quiet_append (quiet_of_isBlanks attr.beforeSign_isBlanks fun blank _ =>
    takeAttribute?_of_head ?_) hsign
  rintro ⟨⟩

/-- Nothing opens in an attribute other than the data up to some place in its value if nothing does
in the value. -/
theorem quiet_attribute (hdata : attr.isData = false) (h : Quiet front rest) :
    Quiet (attr.space ++ (attr.name ++ (attr.sign ++ front))) rest := by
  have hname : Quiet attr.name (attr.sign ++ front ++ rest) :=
    quiet_of_not_blank fun c hc => (attr.name_isName.2 c hc).1
  refine quiet_append (quiet_of_isBlanks attr.space_isBlanks fun blank _ => ?_)
    (quiet_append hname (quiet_append (quiet_sign attr) h))
  rw [List.append_assoc]
  exact takeAttribute?_name hdata blank

theorem takeQuoted?_append {quote : Char} (h : quote ∉ text) :
    takeQuoted? quote (text ++ quote :: rest) = some (text, rest) := by
  have hall : ∀ c ∈ text, (c != quote) = true := fun c hc => bne_iff_ne.2 fun heq => h (heq ▸ hc)
  have hstop : (quote != quote) = false := bne_self_eq_false quote
  rw [takeQuoted?, List.dropWhile_append_of_pos hall, List.takeWhile_append_of_pos hall]
  simp

/-- The data opens at the blank before its name. -/
theorem takeAttribute?_data (hdata : attr.isData = true) {blank : Char}
    (hblank : Text.isBlank blank = true) :
    takeAttribute? (blank :: (attr.name ++ (attr.sign ++ (attr.quoted ++ rest)))) =
      some (attr.value, rest) := by
  have hname : attr.name = ['d'] := beq_iff_eq.1 hdata
  have hmark : attr.quote.mark ∉ attr.value := fun hmem => (attr.value_isValue _ hmem).2 rfl
  have hsign := trimStart_append attr.beforeSign_isBlanks (c := '=') (by decide)
    (attr.behindSign ++ attr.quote.mark :: (attr.quoted ++ rest))
  have hvalue :=
    trimStart_append attr.behindSign_isBlanks (ends_mark attr.quote).1 (attr.quoted ++ rest)
  have htake : takeQuoted? attr.quote.mark (attr.quoted ++ rest) = some (attr.value, rest) := by
    rw [Attribute.quoted, List.append_assoc]
    exact takeQuoted?_append hmark
  rw [hname, Attribute.sign]
  simp only [List.append_assoc, List.cons_append, List.nil_append]
  rw [takeAttribute?, if_pos hblank, hsign]
  simp only [hvalue]
  cases hquote : attr.quote <;> (rw [hquote] at htake; exact htake)

/-- The value of the data is found, and what stands behind it is left. -/
theorem findAttribute?_data (hdata : attr.isData = true) :
    findAttribute? (attr.text ++ rest) = some (attr.value, rest) := by
  have hspace := attr.space_isBlanks
  obtain ⟨gap, blank, hconcat⟩ := (List.eq_nil_or_concat attr.space).resolve_left attr.space_ne_nil
  rw [hconcat, List.concat_eq_append, IsBlanks, List.forall_mem_append, List.forall_mem_singleton]
    at hspace
  obtain ⟨hgap, hblank⟩ := hspace
  have hquiet : Quiet gap (blank :: (attr.name ++ (attr.sign ++ (attr.quoted ++ rest)))) := by
    refine quiet_of_isBlanks hgap fun _ _ => takeAttribute?_of_head ?_
    rintro ⟨⟩
    exact absurd hblank (by decide)
  rw [Attribute.text, hconcat, List.concat_eq_append]
  simp only [List.append_assoc, List.cons_append, List.nil_append]
  rw [findAttribute?_append hquiet (not_mem_of_isBlanks hgap (by decide)), findAttribute?,
    takeAttribute?_data hdata hblank]

/-- The brackets that an attribute has are those of its value. -/
theorem not_mem_text (hc : c = '<' ∨ c = '>') (h : c ∉ attr.value) : c ∉ attr.text := by
  have hblank : Text.isBlank c = false := by rcases hc with rfl | rfl <;> decide
  have hsign : c ≠ '=' := by rcases hc with rfl | rfl <;> decide
  have hmark : c ≠ attr.quote.mark := by rcases hc with rfl | rfl <;> cases attr.quote <;> decide
  have hname : c ∉ attr.name := by
    intro hmem
    have hplain := (attr.name_isName.2 c hmem).2
    rcases hc with rfl | rfl <;> simp at hplain
  simp only [Attribute.text, Attribute.sign, Attribute.quoted, List.mem_append, List.mem_cons,
    List.not_mem_nil, or_false, not_or]
  exact ⟨not_mem_of_isBlanks attr.space_isBlanks hblank, hname,
    ⟨not_mem_of_isBlanks attr.beforeSign_isBlanks hblank,
    hsign, not_mem_of_isBlanks attr.behindSign_isBlanks hblank, hmark⟩, h, hmark⟩

variable {element : Element} {value : List Char}

/-- No blank is a word character: the tables have no code point in common. -/
theorem isWordCharacter_of_isBlank (h : Text.isBlank c = true) :
    Text.isWordCharacter c = false := by
  have hapart : ∀ blanks ∈ Text.blankRanges, ∀ words ∈ Text.wordRanges,
      blanks.2 < words.1 ∨ words.2 < blanks.1 := by
    decide +kernel
  obtain ⟨blanks, hblanks, hblank⟩ := Text.CodeRange.covers_iff.1 h
  rw [Bool.eq_false_iff]
  intro hword
  obtain ⟨words, hwords, hword⟩ := Text.CodeRange.covers_iff.1 hword
  have := hapart blanks hblanks words hwords
  omega

theorem slash_cases (element : Element) : element.slash = [] ∨ element.slash = ['/'] := by
  unfold Element.slash
  split
  · exact .inr rfl
  · exact .inl rfl

theorem tag_not_mem_closing (element : Element) :
    '<' ∉ element.space ++ (element.slash ++ ['>']) := by
  rw [List.mem_append, not_or]
  refine ⟨not_mem_of_isBlanks element.space_isBlanks (by decide), ?_⟩
  rcases slash_cases element with hslash | hslash <;> simp [hslash]

theorem tag_not_mem_flatMap (attributes : List Attribute) :
    '<' ∉ attributes.flatMap Attribute.text := by
  intro hmem
  obtain ⟨attr, -, htext⟩ := List.mem_flatMap.1 hmem
  exact not_mem_text (.inl rfl) (fun hvalue => (attr.value_isValue _ hvalue).1 rfl) htext

theorem tag_not_mem_inner (element : Element) : '<' ∉ element.inner := by
  rw [Element.inner, List.mem_append, not_or]
  exact ⟨tag_not_mem_flatMap element.attributes, tag_not_mem_closing element⟩

/-- The name of an element ends in front of its attributes, blanks and closing. -/
theorem endsName_inner (element : Element) (rest : List Char) :
    endsName (element.inner ++ rest) = true := by
  have hblanks : ∀ {gap : List Char}, IsBlanks gap → gap ≠ [] → ∀ more,
      endsName (gap ++ more) = true := by
    intro gap hgap hne more
    obtain ⟨first, gap, rfl⟩ := List.exists_cons_of_ne_nil hne
    rw [List.cons_append, endsName, isWordCharacter_of_isBlank (hgap first List.mem_cons_self)]
    rfl
  unfold Element.inner
  cases element.attributes with
  | cons attr others =>
    rw [List.flatMap_cons, Attribute.text]
    simp only [List.append_assoc]
    exact hblanks attr.space_isBlanks attr.space_ne_nil _
  | nil =>
    by_cases hspace : element.space = []
    · have hends : Text.isWordCharacter '/' = false ∧
        Text.isWordCharacter '>' = false := by decide +kernel
      rcases slash_cases element with hslash | hslash <;> simp [hspace, hslash, endsName, hends]
    · rw [List.flatMap_nil, List.nil_append, List.append_assoc]
      exact hblanks element.space_isBlanks hspace _

theorem takeElement?_text (element : Element) (rest : List Char) :
    takeElement? (element.text ++ rest) = findAttribute? (element.inner ++ rest) := by
  have hname := endsName_inner element rest
  rw [Element.text, List.append_assoc]
  exact if_pos hname

/-- The closing of an element opens nothing. -/
theorem quiet_closing (element : Element) :
    Quiet (element.space ++ (element.slash ++ ['>'])) rest := by
  have hslash : Quiet (element.slash ++ ['>']) rest := by
    have hbracket : Quiet ['>'] rest := ⟨takeAttribute?_of_not_blank (by decide), trivial⟩
    rcases slash_cases element with heq | heq
    · rw [heq]
      exact hbracket
    · rw [heq]
      exact ⟨takeAttribute?_of_not_blank (by decide), hbracket⟩
  refine quiet_append (quiet_of_isBlanks element.space_isBlanks fun _ _ =>
    takeAttribute?_of_head ?_) hslash
  rcases slash_cases element with heq | heq <;> simp [heq]

/-- The reader finds the data of plain attributes in front of a closing. -/
theorem findAttribute?_attributes {attributes : List Attribute} {closing : List Char}
    (h : IsPlain attributes) (hquiet : ∀ rest, Quiet closing rest) (hbracket : '>' ∈ closing)
    (htag : '<' ∉ closing) (rest : List Char) :
    ∃ after, '<' ∉ after ∧ findAttribute? (attributes.flatMap Attribute.text ++ (closing ++ rest)) =
      (dataOf? attributes).map fun value => (value, after ++ rest) := by
  induction h with
  | nil =>
    refine ⟨[], List.not_mem_nil, ?_⟩
    rw [List.flatMap_nil, List.nil_append, findAttribute?_eq_none (hquiet rest) hbracket]
    rfl
  | @data attr others isData =>
    refine ⟨others.flatMap Attribute.text ++ closing, ?_, ?_⟩
    · rw [List.mem_append, not_or]
      exact ⟨tag_not_mem_flatMap others, htag⟩
    · rw [List.flatMap_cons, List.append_assoc, findAttribute?_data isData,
        dataOf?_cons_of_isData isData, List.append_assoc, Option.map_some]
  | @other attr others isOther noOpening noBracket plain ih =>
    obtain ⟨after, hafter, hfind⟩ := ih
    have hquoted : Quiet attr.text (others.flatMap Attribute.text ++ (closing ++ rest)) :=
      quiet_attribute isOther (quiet_concat (ends_mark attr.quote) noOpening)
    refine ⟨after, hafter, ?_⟩
    rw [List.flatMap_cons, List.append_assoc,
      findAttribute?_append hquoted (not_mem_text (.inr rfl) noBracket), hfind,
      dataOf?_cons_of_isOther isOther]
  | @ended attr others before behind isOther value_eq noOpening noData =>
    have htext : attr.text = attr.space ++ (attr.name ++ (attr.sign ++ (before ++ ['>']))) ++
        (behind ++ [attr.quote.mark]) := by
      rw [Attribute.text, Attribute.quoted, value_eq]
      simp
    have hvalue : ∀ more, Quiet (before ++ ['>']) more := fun _ =>
      quiet_concat ends_bracket fun hholds => noOpening (holdsOpening_of_concat_bracket hholds)
    refine ⟨[], List.not_mem_nil, ?_⟩
    rw [List.flatMap_cons, htext, List.append_assoc, List.append_assoc _ (behind ++ _),
      findAttribute?_eq_none (quiet_attribute isOther (hvalue _)) (by simp),
      dataOf?_cons_of_isOther isOther, noData]
    rfl

/-- The reader takes the data of an element, and nothing else of it can start an element. -/
theorem takeElement?_element (h : IsPlain element.attributes) (rest : List Char) :
    ∃ after, '<' ∉ after ∧
      takeElement? (element.text ++ rest) = element.data?.map fun value =>
        (value, after ++ rest) := by
  have hfind :=
    findAttribute?_attributes h (fun _ => quiet_closing element) (by simp)
      (tag_not_mem_closing element) rest
  rwa [takeElement?_text, Element.inner, List.append_assoc]

theorem pathData_of_none (h : takeElement? (c :: rest) = none) :
    pathData (c :: rest) = pathData rest := by
  rw [pathData]
  split
  · rename_i hsome
    cases h.symm.trans hsome
  · rfl

theorem pathData_of_some (h : takeElement? text = some (value, rest)) :
    pathData text = value :: pathData rest := by
  cases text with
  | nil => cases h
  | cons c text =>
    rw [pathData]
    split
    · rename_i hsome
      obtain ⟨rfl, rfl⟩ := Prod.mk.inj (Option.some.inj (h.symm.trans hsome))
      rfl
    · rename_i hnone
      cases hnone.symm.trans h

theorem takeElement?_eq_none (h : ¬startText <+: text) : takeElement? text = none := by
  unfold takeElement?
  split
  · exact absurd ⟨_, rfl⟩ h
  · rfl

/-- Text without opening bracket is passed over. -/
theorem pathData_append_of_no_tag (h : '<' ∉ front) : pathData (front ++ rest) = pathData rest := by
  induction front with
  | nil => rfl
  | cons c front ih =>
    rw [List.mem_cons, not_or] at h
    have hnone : takeElement? (c :: (front ++ rest)) = none := by
      apply takeElement?_eq_none
      rintro ⟨tail, heq⟩
      exact h.1 (List.cons.inj heq).1
    rw [List.cons_append, pathData_of_none hnone, ih h.2]

/-- Text without the start of an element is passed over before the next element: a start cannot
reach into that. -/
theorem pathData_append_of_plain (h : ¬startText <:+: front) (hrest : ∀ c ∈ rest.head?, c = '<') :
    pathData (front ++ rest) = pathData rest := by
  induction front with
  | nil => rfl
  | cons c front ih =>
    have hnone : takeElement? (c :: (front ++ rest)) = none := by
      apply takeElement?_eq_none
      intro hfront
      rcases List.prefix_or_prefix_of_prefix hfront (List.prefix_append (c :: front) rest)
        with hinside | ⟨tail, heq⟩
      · exact h hinside.isInfix
      -- The start would go on in the next element, with a bracket in its name.
      have hname : front ++ tail = ['p', 'a', 't', 'h'] := (List.cons.inj heq).2
      rw [← heq, ← List.cons_append, List.prefix_append_right_inj] at hfront
      cases tail with
      | nil =>
        rw [List.append_nil] at heq
        exact h (heq ▸ List.infix_refl _)
      | cons next tail =>
        obtain ⟨more, rfl⟩ := hfront
        obtain rfl := hrest next rfl
        have hmem : '<' ∈ front ++ '<' :: tail := by simp
        rw [hname] at hmem
        exact absurd hmem (by decide)
    rw [List.cons_append, pathData_of_none hnone, ih fun hpart => h (List.infix_cons hpart)]

/-- An element gives its data. -/
theorem pathData_text (h : IsPlain element.attributes) (rest : List Char) :
    pathData (element.text ++ rest) = element.data?.toList ++ pathData rest := by
  obtain ⟨after, hafter, htake⟩ := takeElement?_element h rest
  cases hdata : element.data? with
  | some value =>
    rw [hdata] at htake
    rw [pathData_of_some htake, pathData_append_of_no_tag hafter]
    rfl
  | none =>
    rw [hdata] at htake
    have hbehind : '<' ∉ 'p' :: 'a' :: 't' :: 'h' :: element.inner := by
      simpa using tag_not_mem_inner element
    calc pathData (element.text ++ rest)
        = pathData ('p' :: 'a' :: 't' :: 'h' :: element.inner ++ rest) := pathData_of_none htake
      _ = pathData rest := pathData_append_of_no_tag hbehind

/-- The path data of a document is the data of its elements. -/
theorem pathData_of_documentText {elements : List Element} (h : DocumentText elements text)
    (hplain : ∀ element ∈ elements, IsPlain element.attributes) :
    pathData text = elements.filterMap Element.data? := by
  induction h with
  | @nil text plain =>
    have hskip : pathData (text ++ []) = pathData [] := pathData_append_of_plain plain (by simp)
    rwa [List.append_nil, pathData] at hskip
  | @cons element elements before rest plain others ih =>
    rw [List.forall_mem_cons] at hplain
    have hstart : ∀ c ∈ (element.text ++ rest).head?, c = '<' :=
      fun c hc => (Option.some.inj hc).symm
    rw [pathData_append_of_plain plain hstart, pathData_text hplain.1, ih hplain.2,
      List.filterMap_cons]
    cases element.data? <;> rfl

theorem isPopulated_foldl_add {canvas : PathData.Canvas} (h : canvas.drawn.IsPopulated)
    (strokes : List PathData.Stroke) :
    (strokes.foldl PathData.Canvas.add canvas).drawn.IsPopulated := by
  induction strokes generalizing canvas with
  | nil => exact h
  | cons stroke rest ih =>
    apply ih
    obtain ⟨-, hadd⟩ | ⟨-, hadd⟩ | ⟨-, hadd⟩ := canvas.add_cases stroke
    · rw [hadd]
      exact h.push _
    · rw [hadd]
      exact h
    · rw [hadd]
      exact h

theorem isPopulated_pathData (data : List Char) : (PathData.linework data).IsPopulated := by
  rw [PathData.linework_eq_finish]
  exact (isPopulated_foldl_add Linework.isPopulated_empty _).push _

theorem polylines_foldl_extend (all : List (List Char)) (work : Linework Float) :
    (all.foldl (fun work data => work.extend (PathData.linework data)) work).polylines =
      work.polylines ++ all.flatMap fun data => (PathData.linework data).polylines := by
  induction all generalizing work with
  | nil => exact (List.append_nil _).symm
  | cons data rest ih =>
    rw [List.foldl_cons, ih, (isPopulated_pathData data).polylines_extend, List.append_assoc,
      List.flatMap_cons]

/-- The linework of a document is that of the data of its elements, one after the other, as long as
no value in front of the data holds a closing bracket or text like the start of a `d` attribute. -/
theorem linework_of_document {elements : List Element} {text : String}
    (h : DocumentText elements text.toList)
    (hplain : ∀ element ∈ elements, IsPlain element.attributes) :
    (linework text).polylines =
      (elements.filterMap Element.data?).flatMap fun data =>
        (PathData.linework data).polylines := by
  rw [linework, pathData_of_documentText h hplain]
  exact polylines_foldl_extend _ .empty

/-- Text without sign holds no opening. -/
theorem not_holdsOpening (h : '=' ∉ text) : ¬HoldsOpening text := by
  rintro ⟨_, @⟨blank, before, behind, mark, -, -, -, -⟩, hpart⟩
  exact h (hpart.mem (by simp))

/-- Values behind the data, and those of an element without data, may hold brackets. -/
theorem linework_of_document_labelled :
    let text :=
      "<svg><path id=\"a\" d = 'M0 0L1 1' label=\"> d='9'\"/><path\nlabel='x>y' ></path></svg>"
    ∃ elements, DocumentText elements text.toList ∧
      (∀ element ∈ elements, IsPlain element.attributes) ∧
      (linework text).polylines = [⟨[⟨0, 0⟩, ⟨1, 1⟩]⟩] := by
  intro text
  let id : Attribute := { name := ['i', 'd'], value := ['a'] }
  let data : Attribute :=
    { name := ['d'], beforeSign := [' '], behindSign := [' '], quote := .single,
      value := "M0 0L1 1".toList }
  let behind : Attribute := { name := "label".toList, value := "> d='9'".toList }
  let label : Attribute :=
    { space := ['\n'], name := "label".toList, quote := .single, value := "x>y".toList }
  let drawn : Element := { attributes := [id, data, behind], isClosed := true }
  let bare : Element := { attributes := [label], space := [' '], isClosed := false }
  have hdocument : DocumentText [drawn, bare] text.toList := by
    have htext : "<svg>".toList ++ (drawn.text ++ ([] ++ (bare.text ++ "</path></svg>".toList))) =
        text.toList := by
      decide +kernel
    rw [← htext]
    exact .cons (by decide +kernel) (.cons (by decide +kernel) (.nil (by decide +kernel)))
  have hplain : ∀ element ∈ [drawn, bare], IsPlain element.attributes := by
    rw [List.forall_mem_cons, List.forall_mem_singleton]
    constructor
    · exact .other rfl (not_holdsOpening (by decide)) (by decide) (.data rfl)
    · have hvalue : label.value = ['x'] ++ '>' :: ['y'] := rfl
      exact .ended rfl hvalue (not_holdsOpening (by decide)) rfl
  refine ⟨_, hdocument, hplain, (linework_of_document hdocument hplain).trans ?_⟩
  decide +kernel

theorem documentText_of_text {element : Element} (h : element.text = text) :
    DocumentText [element] text := by
  have halone : DocumentText [element] ([] ++ (element.text ++ [])) :=
    .cons (by decide) (.nil (by decide))
  rwa [List.nil_append, List.append_nil, h] at halone

/-- Two elements with the same data. The first is taken to end in its label, and the data of the
second to be in its label. -/
theorem linework_of_deceptive_values :
    let bracket := "<path label='a>b' d=\"M0 0L1 1\"/>"
    let resembling := "<path label='x d=\"M9 9\"' d=\"M0 0L1 1\"/>"
    (∃ element, DocumentText [element] bracket.toList ∧ element.data? = some "M0 0L1 1".toList) ∧
      (∃ element, DocumentText [element] resembling.toList ∧
        element.data? = some "M0 0L1 1".toList) ∧
      (PathData.linework "M0 0L1 1".toList).polylines = [⟨[⟨0, 0⟩, ⟨1, 1⟩]⟩] ∧
      (linework bracket).polylines = [] ∧ (linework resembling).polylines = [⟨[⟨9, 9⟩]⟩] := by
  let data : Attribute := { name := ['d'], value := "M0 0L1 1".toList }
  let first : Attribute := { name := "label".toList, quote := .single, value := "a>b".toList }
  let second : Attribute :=
    { name := "label".toList, quote := .single, value := "x d=\"M9 9\"".toList }
  refine ⟨⟨{ attributes := [first, data], isClosed := true }, documentText_of_text ?_, ?_⟩,
    ⟨{ attributes := [second, data], isClosed := true }, documentText_of_text ?_, ?_⟩, ?_, ?_, ?_⟩
  all_goals decide +kernel

end Turnery.Svg.Document
