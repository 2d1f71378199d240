import Turnery.Number.Fixed
import Turnery.Number.Literal
import Turnery.Text.Decimal

/-!
# The shape of written decimals

What the printers write for a finite double is an optional minus sign, digits, and possibly a point
with further digits. Both readers accept this shape: `takeDecimal?_append_of_isDecimal` says that
the reader of running text takes such a decimal as a whole and leaves what follows it, and
`exists_float?_of_isDecimal` that it denotes a double.
-/

namespace Turnery.Number

open Text (isDecimalDigit isDecimalDigit_of_isDigit takeUnsigned? takeDecimal?)

/-- One or more ASCII digits. -/
structure IsDigits (ds : List Char) : Prop where
  ne_nil : ds ≠ []
  isDigit : ∀ c ∈ ds, c.isDigit = true

/-- Digits, and a point with further digits or nothing. -/
inductive IsUnsigned : List Char → Prop where
  | whole {ds : List Char} (digits : IsDigits ds) : IsUnsigned ds
  | fraction {ds es : List Char} (digits : IsDigits ds) (decimals : IsDigits es) :
    IsUnsigned (ds ++ '.' :: es)

/-- A decimal with a minus sign or without a sign. -/
inductive IsDecimal : List Char → Prop where
  | unsigned {text : List Char} (body : IsUnsigned text) : IsDecimal text
  | negative {text : List Char} (body : IsUnsigned text) : IsDecimal ('-' :: text)

theorem isDigits_digits (n : Nat) : IsDigits (digits n) where
  ne_nil := Nat.toDigits_ne_nil
  isDigit _ hc := Nat.isDigit_of_mem_toDigits (by decide) (by decide) hc

theorem isDigit_of_mem_lastDigits {places n : Nat} {c : Char} (hc : c ∈ lastDigits places n) :
    c.isDigit = true := by
  induction places with
  | zero => simp [lastDigits] at hc
  | succ places ih =>
    rcases List.mem_cons.1 hc with rfl | hc
    · rw [Nat.isDigit_digitChar, decide_eq_true_eq]
      exact Nat.mod_lt _ (by decide)
    · exact ih hc

theorem mem_of_mem_dropTrailingZeros {ds : List Char} {c : Char} (hc : c ∈ dropTrailingZeros ds) :
    c ∈ ds := by
  rw [dropTrailingZeros, List.mem_reverse] at hc
  exact List.mem_reverse.1 ((List.dropWhile_sublist _).mem hc)

theorem isUnsigned_append_fractionText {ds : List Char} (h : IsDigits ds) (places units : Nat) :
    IsUnsigned (ds ++ fractionText places units) := by
  unfold fractionText
  split
  · rw [List.append_nil]
    exact .whole h
  · rename_i es hne
    refine .fraction h ⟨hne, fun c hc => ?_⟩
    exact isDigit_of_mem_lastDigits (mem_of_mem_dropTrailingZeros hc)

theorem isDecimal_canonicalDecimal (negative : Bool) (places units : Nat) :
    IsDecimal (canonicalDecimal negative places units) := by
  have body :=
    isUnsigned_append_fractionText (isDigits_digits (units / Nat.pow 10 places)) places units
  unfold canonicalDecimal
  split
  · exact .negative body
  · exact .unsigned body

theorem Binary64.isFinite_iff {x : Float} :
    x.isFinite = true ↔ ∃ negative mantissa exponent,
      Binary64.ofFloat x = .finite negative mantissa exponent := by
  unfold Binary64.ofFloat Float.isFinite Float.Model.isFinite
  cases x.toModel.unpack with
  | zero | finite => exact ⟨fun _ => ⟨_, _, _, rfl⟩, fun _ => rfl⟩
  | notANumber | infinity =>
    constructor
    · intro h
      cases h
    · rintro ⟨_, _, _, h⟩
      cases h

/-- A finite double is written as a decimal. -/
theorem isDecimal_trimmedDecimal (places : Nat) {x : Float} (h : x.isFinite = true) :
    IsDecimal (trimmedDecimal places x).toList := by
  obtain ⟨negative, mantissa, exponent, hx⟩ := Binary64.isFinite_iff.1 h
  simp only [trimmedDecimal, hx, String.toList_ofList]
  exact isDecimal_canonicalDecimal _ _ _

theorem IsUnsigned.digit_or_point {text : List Char} (h : IsUnsigned text) {c : Char}
    (hc : c ∈ text) :
    c.isDigit = true ∨ c = '.' := by
  cases h with
  | whole hds => exact .inl (hds.isDigit c hc)
  | fraction hds hes =>
    rcases List.mem_append.1 hc with hc | hc
    · exact .inl (hds.isDigit c hc)
    · rcases List.mem_cons.1 hc with rfl | hc
      · exact .inr rfl
      · exact .inl (hes.isDigit c hc)

theorem IsDecimal.digit_or_mark {text : List Char} (h : IsDecimal text) {c : Char} (hc : c ∈ text) :
    c.isDigit = true ∨ c = '.' ∨ c = '-' := by
  cases h with
  | unsigned body => exact (body.digit_or_point hc).imp_right .inl
  | negative body =>
    rcases List.mem_cons.1 hc with rfl | hc
    · exact .inr (.inr rfl)
    · exact (body.digit_or_point hc).imp_right .inl

/-- A decimal without sign starts with a digit. -/
theorem IsUnsigned.exists_cons {text : List Char} (h : IsUnsigned text) :
    ∃ d rest, text = d :: rest ∧ d.isDigit = true := by
  have start : ∀ {ds : List Char}, IsDigits ds → ∃ d rest, ds = d :: rest ∧ d.isDigit = true := by
    intro ds hds
    cases ds with
    | nil => exact absurd rfl hds.ne_nil
    | cons d rest => exact ⟨d, rest, rfl, hds.isDigit d (by simp)⟩
  cases h with
  | whole hds => exact start hds
  | fraction hds _ =>
    obtain ⟨d, rest, rfl, hd⟩ := start hds
    exact ⟨d, _, rfl, hd⟩

/-- The text cannot go on a decimal that stands before it. -/
def Stops (rest : List Char) : Prop :=
  ∀ c ∈ rest.head?, isDecimalDigit c = false ∧ c ≠ '.'

theorem stops_nil : Stops [] := by
  simp [Stops]

theorem takeDigits_append_of_head {ds rest : List Char} (h : ∀ c ∈ ds, c.isDigit = true)
    (hrest : ∀ c ∈ rest.head?, isDecimalDigit c = false) :
    Text.takeDigits (ds ++ rest) = (ds, rest) := by
  have hds : ∀ c ∈ ds, isDecimalDigit c = true := fun c hc => isDecimalDigit_of_isDigit (h c hc)
  rw [Text.takeDigits, List.takeWhile_append_of_pos hds, List.dropWhile_append_of_pos hds]
  cases rest with
  | nil => simp
  | cons c rest => simp [hrest c rfl]

theorem takeDigits_append_of_isDigits {ds : List Char} (h : IsDigits ds) {rest : List Char}
    (hrest : ∀ c ∈ rest.head?, isDecimalDigit c = false) :
    Text.takeDigits (ds ++ rest) = (ds, rest) :=
  takeDigits_append_of_head h.isDigit hrest

theorem takeUnsigned?_append_of_isUnsigned {text rest : List Char} (h : IsUnsigned text)
    (hrest : Stops rest) : takeUnsigned? (text ++ rest) = some (text, rest) := by
  cases h with
  | whole hds =>
    have hne := hds.ne_nil
    rw [takeUnsigned?, takeDigits_append_of_isDigits hds fun c hc => (hrest c hc).1]
    dsimp only
    split
    · exact absurd rfl (hrest '.' rfl).2
    · simp [hne]
  | @fraction ds es hds hes =>
    have hpoint : Text.takeDigits (ds ++ '.' :: (es ++ rest)) = (ds, '.' :: (es ++ rest)) :=
      takeDigits_append_of_isDigits hds (by simp; decide)
    have hes' : Text.takeDigits (es ++ rest) = (es, rest) :=
      takeDigits_append_of_isDigits hes fun c hc => (hrest c hc).1
    rw [List.append_assoc, List.cons_append, takeUnsigned?, hpoint]
    simp [hes', hds.ne_nil]

/-- A decimal is split off as a whole. -/
theorem takeDecimal?_append_of_isDecimal {text rest : List Char} (h : IsDecimal text)
    (hrest : Stops rest) : takeDecimal? (text ++ rest) = some (text, rest) := by
  cases h with
  | negative body =>
    rw [List.cons_append, takeDecimal?, takeUnsigned?_append_of_isUnsigned body hrest]
    rfl
  | unsigned body =>
    have htake := takeUnsigned?_append_of_isUnsigned body hrest
    obtain ⟨d, tail, rfl, hd⟩ := body.exists_cons
    rw [List.cons_append] at htake ⊢
    rw [takeDecimal?.eq_3, htake]
    · rintro _ ⟨⟩
      exact absurd hd (by decide)
    · rintro _ ⟨⟩
      exact absurd hd (by decide)

theorem splitDigits_append_of_head {ds rest : List Char} (h : ∀ c ∈ ds, c.isDigit = true)
    (hrest : ∀ c ∈ rest.head?, c.isDigit = false) : splitDigits (ds ++ rest) = (ds, rest) := by
  rw [splitDigits, List.takeWhile_append_of_pos h, List.dropWhile_append_of_pos h]
  cases rest with
  | nil => simp
  | cons c rest => simp [hrest c rfl]

theorem splitDigits_append_of_isDigits {ds : List Char} (h : IsDigits ds) {rest : List Char}
    (hrest : ∀ c ∈ rest.head?, c.isDigit = false) : splitDigits (ds ++ rest) = (ds, rest) :=
  splitDigits_append_of_head h.isDigit hrest

theorem splitDigits_of_isDigits {ds : List Char} (h : IsDigits ds) : splitDigits ds = (ds, []) := by
  have :=
    splitDigits_append_of_isDigits h (show ∀ c ∈ ([] : List Char).head?, c.isDigit = false by simp)
  rwa [List.append_nil] at this

theorem unsigned?_of_isDigits {ds : List Char} (h : IsDigits ds) :
    unsigned? ds = some (natOfDigits ds, 0) := by
  have hsplit := splitDigits_of_isDigits h
  simp [unsigned?, hsplit, splitFraction, exponent?, h.ne_nil]

/-- The digits after the point count as negative powers of ten. -/
theorem unsigned?_append_point {ds es : List Char} (hds : IsDigits ds) (hes : IsDigits es) :
    unsigned? (ds ++ '.' :: es) = some (natOfDigits (ds ++ es), -(es.length : Int)) := by
  have hwhole : splitDigits (ds ++ '.' :: es) = (ds, '.' :: es) :=
    splitDigits_append_of_isDigits hds (by simp)
  have hfraction := splitDigits_of_isDigits hes
  simp [unsigned?, hwhole, splitFraction, hfraction, exponent?, hds.ne_nil]

/-- The fraction part counts as the digits that are left in it. -/
theorem unsigned?_append_fractionText {ds : List Char} (h : IsDigits ds) (places units : Nat) :
    unsigned? (ds ++ fractionText places units) =
      some (natOfDigits (ds ++ dropTrailingZeros (lastDigits places units)),
        -((dropTrailingZeros (lastDigits places units)).length : Int)) := by
  have hdigit : ∀ c ∈ dropTrailingZeros (lastDigits places units), c.isDigit = true :=
    fun c hc => isDigit_of_mem_lastDigits (mem_of_mem_dropTrailingZeros hc)
  unfold fractionText
  cases hkept : dropTrailingZeros (lastDigits places units) with
  | nil =>
    rw [List.append_nil, unsigned?_of_isDigits h]
    rfl
  | cons d rest =>
    rw [hkept] at hdigit
    exact unsigned?_append_point h ⟨List.cons_ne_nil d rest, hdigit⟩

theorem splitSign_of_isUnsigned {text : List Char} (h : IsUnsigned text) :
    splitSign text = (false, text) := by
  obtain ⟨d, tail, rfl, hd⟩ := h.exists_cons
  apply splitSign.eq_3
  · rintro _ ⟨⟩
    exact absurd hd (by decide)
  · rintro _ ⟨⟩
    exact absurd hd (by decide)

/-- A minus sign in front makes the number negative and nothing else. -/
theorem float?_of_isUnsigned (negative : Bool) {text : List Char} (h : IsUnsigned text) {ds : Nat}
    {e : Int} (hread : unsigned? text = some (ds, e)) :
    float? ((if negative then ['-'] else []) ++ text) =
      some (Numeral.toFloat ⟨negative, ds, e⟩) := by
  cases negative with
  | true => simp [float?, splitSign, hread]
  | false => simp [float?, splitSign_of_isUnsigned h, hread]

/-- A decimal denotes a double. -/
theorem exists_float?_of_isDecimal {text : List Char} (h : IsDecimal text) :
    ∃ x, float? text = some x := by
  have read : ∀ {body : List Char}, IsUnsigned body → ∃ ds e, unsigned? body = some (ds, e) := by
    intro body hbody
    cases hbody with
    | whole hds => exact ⟨_, _, unsigned?_of_isDigits hds⟩
    | fraction hds hes => exact ⟨_, _, unsigned?_append_point hds hes⟩
  cases h with
  | negative body =>
    obtain ⟨ds, e, hread⟩ := read body
    exact ⟨_, float?_of_isUnsigned true body hread⟩
  | unsigned body =>
    obtain ⟨ds, e, hread⟩ := read body
    exact ⟨_, float?_of_isUnsigned false body hread⟩

end Turnery.Number
