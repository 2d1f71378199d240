import Turnery.Proofs.Json.Number
import Turnery.Proofs.Json.String

/-!
# Data in JSON read back

Data that JSON can hold are read back from the text that is written for them:
`ofJsonText?_jsonText`. The proof goes along the tree. What is written for a part is read off the
front of a text, whatever blanks stand before it, with as much fuel as the part is long.
-/

namespace Turnery.Datum

open Json (Value)
open Json.Reader
open Json.Lexeme (Ends ends_nil ReadsBack)

mutual

/-- JSON can hold the datum: integers have 64 bits, doubles are finite and found again by the
arithmetic of the reader, and every name is there. -/
def InJson : Datum → Prop
  | null => True
  | bool _ => True
  | integer n => -2 ^ 63 ≤ n ∧ n < 2 ^ 64
  | real x => x.isFinite = true ∧ ReadsBack x
  | text _ => True
  | list items => InJsonItems items
  | record members => InJsonMembers members
  | unreadable => False

def InJsonItems : List Datum → Prop
  | [] => True
  | item :: items => InJson item ∧ InJsonItems items

def InJsonMembers : List (Option String × Datum) → Prop
  | [] => True
  | (name, value) :: members => name.isSome = true ∧ InJson value ∧ InJsonMembers members

end

def IsBlanks (space : List Char) : Prop :=
  ∀ c ∈ space, isSpace c = true

theorem isBlanks_nil : IsBlanks [] := by
  simp [IsBlanks]

theorem isBlanks_space : IsBlanks [' '] := by
  intro c hc
  obtain rfl := List.mem_singleton.1 hc
  rfl

theorem isBlanks_indent (level : ℕ) : IsBlanks (indent level).toList := by
  intro c hc
  rw [indent, String.toList_ofList] at hc
  rcases List.mem_cons.1 hc with rfl | hc
  · rfl
  · rw [List.eq_of_mem_replicate hc]
    rfl

theorem skipSpace_append {space : List Char} (hspace : IsBlanks space) {text : List Char}
    (htext : ∀ c ∈ text.head?, isSpace c = false) : skipSpace (space ++ text) = text := by
  rw [skipSpace, List.dropWhile_append_of_pos hspace]
  cases text with
  | nil => rfl
  | cons c text => simp [htext c rfl]

/-- Blanks in front of a value do not count. -/
theorem value?_append {space : List Char} (hspace : IsBlanks space) {text : List Char}
    (htext : ∀ c ∈ text.head?, isSpace c = false) (fuel : ℕ) :
    value? (fuel + 1) (space ++ text) = value? (fuel + 1) text := by
  have hself : skipSpace text = text := skipSpace_append isBlanks_nil htext
  rw [value?, value?, skipSpace_append hspace htext, hself]

/-- What starts like a number is read as one. -/
theorem value?_number {text lexeme rest : List Char} {d : Char} {tail : List Char}
    (hskip : skipSpace text = d :: tail) (hd : d = '-' ∨ d.isDigit = true)
    (htake : Json.Lexeme.take? (d :: tail) = some (lexeme, rest)) (fuel : ℕ) :
    value? (fuel + 1) text = some (.number lexeme, rest) := by
  have hother : d ≠ 'n' ∧ d ≠ 't' ∧ d ≠ 'f' ∧ d ≠ '"' ∧ d ≠ '[' ∧ d ≠ '{' := by
    refine ⟨?_, ?_, ?_, ?_, ?_, ?_⟩ <;> (rintro rfl; revert hd; decide)
  obtain ⟨hn, ht, hf, hmark, hlist, hrecord⟩ := hother
  rw [value?, hskip]
  split
  · rename_i heq
    exact absurd (List.cons.inj heq).1 hn
  · rename_i heq
    exact absurd (List.cons.inj heq).1 ht
  · rename_i heq
    exact absurd (List.cons.inj heq).1 hf
  · rename_i heq
    exact absurd (List.cons.inj heq).1 hmark
  · rename_i heq
    exact absurd (List.cons.inj heq).1 hlist
  · rename_i heq
    exact absurd (List.cons.inj heq).1 hrecord
  · rw [htake, Option.map_some]

theorem isSpace_eq_false {d : Char} (hd : d = '-' ∨ d.isDigit = true) : isSpace d = false := by
  have hother : d ≠ ' ' ∧ d ≠ '\t' ∧ d ≠ '\n' ∧ d ≠ '\r' := by
    refine ⟨?_, ?_, ?_, ?_⟩ <;> (rintro rfl; revert hd; decide)
  simp [isSpace, hother]

/-- A number behind blanks is read up to whatever follows it. -/
theorem value?_numberText (negative : Bool) {body whole fraction exponent space rest : List Char}
    (h : Number.IsNumberText body whole fraction exponent) (hspace : IsBlanks space)
    (hrest : Ends rest) (fuel : ℕ) :
    value? (fuel + 1) (space ++ ((if negative then ['-'] else []) ++ body ++ rest)) =
      some (.number ((if negative then ['-'] else []) ++ body), rest) := by
  have htake := Json.Lexeme.take?_append negative h hrest
  obtain ⟨d, tail, hfront, hd⟩ := Json.Lexeme.exists_cons_of_isNumberText negative h
  rw [hfront, List.cons_append] at htake ⊢
  refine value?_number (skipSpace_append hspace ?_) hd htake fuel
  rintro _ ⟨⟩
  exact isSpace_eq_false hd

theorem value?_integer {n : ℤ} (h : InJson (integer n)) {space rest : List Char}
    (hspace : IsBlanks space) (hrest : Ends rest) (fuel : ℕ) :
    ∃ v, value? (fuel + 1) (space ++ ((integerText n).toList ++ rest)) = some (v, rest) ∧
      ofJson v = integer n := by
  have hread :=
    value?_numberText (decide (n < 0)) (Number.isNumberText_digits n.natAbs) hspace hrest fuel
  simp only [decide_eq_true_eq, ← Json.Lexeme.toList_integerText] at hread
  refine ⟨_, hread, ?_⟩
  rw [ofJson, ofLexeme, Json.Lexeme.value?_integerText h.1 h.2]

theorem value?_real {x : Float} (h : InJson (real x)) {space rest : List Char}
    (hspace : IsBlanks space) (hrest : Ends rest) (fuel : ℕ) :
    ∃ v, value? (fuel + 1) (space ++ ((jsonReal x).toList ++ rest)) = some (v, rest) ∧
      ofJson v = real x := by
  obtain ⟨hfinite, hback⟩ := h
  obtain ⟨negative, mantissa, exponent, hx⟩ := Number.Binary64.isFinite_iff.1 hfinite
  obtain ⟨body, whole, fraction, exponent', htext, hshape⟩ :=
    Number.FloatStyle.exists_jsonFloat_text hx
  have hreal : jsonReal x = Number.FloatStyle.jsonFloat.text x := if_pos hfinite
  have hread := value?_numberText negative hshape hspace hrest fuel
  rw [← htext, ← hreal] at hread
  refine ⟨_, hread, ?_⟩
  rw [ofJson, ofLexeme, hback]

theorem jsonString_append (s : String) (rest : List Char) :
    (jsonString s).toList ++ rest = '"' :: (s.toList.flatMap jsonChar ++ '"' :: rest) := by
  simp [jsonString]

/-- A string behind blanks is read as the text it was written for. -/
theorem value?_string (s : String) {space : List Char} (hspace : IsBlanks space) (rest : List Char)
    (fuel : ℕ) :
    value? (fuel + 1) (space ++ ((jsonString s).toList ++ rest)) =
      some (.string (some s), rest) := by
  have hskip : skipSpace (space ++ '"' :: (s.toList.flatMap jsonChar ++ '"' :: rest)) =
      '"' :: (s.toList.flatMap jsonChar ++ '"' :: rest) := by
    refine skipSpace_append hspace ?_
    rintro _ ⟨⟩
    rfl
  rw [jsonString_append, value?, hskip]
  simp only [string?_jsonString, Option.map_some]

/-- The text of a datum starts with neither a blank nor a closing mark. -/
theorem exists_jsonText_eq_cons {d : Datum} (h : InJson d) (level : ℕ) :
    ∃ c tail, (jsonText level d).toList = c :: tail ∧ isSpace c = false ∧ c ≠ ']' := by
  have ofNumber : ∀ {negative : Bool} {body whole fraction exponent : List Char},
      Number.IsNumberText body whole fraction exponent → ∃ c tail,
        (if negative then ['-'] else []) ++ body = c :: tail ∧ isSpace c = false ∧ c ≠ ']' := by
    intro negative body whole fraction exponent hshape
    obtain ⟨c, tail, hfront, hc⟩ := Json.Lexeme.exists_cons_of_isNumberText negative hshape
    refine ⟨c, tail, hfront, isSpace_eq_false hc, ?_⟩
    rintro rfl
    revert hc
    decide
  cases d with
  | null => exact ⟨'n', ['u', 'l', 'l'], by simp [jsonText], rfl, by decide⟩
  | bool b =>
    cases b with
    | true => exact ⟨'t', ['r', 'u', 'e'], by simp [jsonText], rfl, by decide⟩
    | false => exact ⟨'f', ['a', 'l', 's', 'e'], by simp [jsonText], rfl, by decide⟩
  | integer n =>
    obtain ⟨c, tail, hfront, hc⟩ :=
      @ofNumber (decide (n < 0)) _ _ _ _ (Number.isNumberText_digits n.natAbs)
    refine ⟨c, tail, ?_, hc⟩
    rw [← hfront]
    simp only [decide_eq_true_eq]
    exact Json.Lexeme.toList_integerText n
  | real x =>
    obtain ⟨negative, mantissa, exponent, hx⟩ := Number.Binary64.isFinite_iff.1 h.1
    obtain ⟨body, whole, fraction, exponent', htext, hshape⟩ :=
      Number.FloatStyle.exists_jsonFloat_text hx
    obtain ⟨c, tail, hfront, hc⟩ := @ofNumber negative _ _ _ _ hshape
    refine ⟨c, tail, ?_, hc⟩
    rw [← hfront, ← htext, jsonText, jsonReal, if_pos h.1]
  | text s => exact ⟨'"', _, by simp [jsonText, jsonString]; rfl, rfl, by decide⟩
  | list items =>
    rw [jsonText, bracketed]
    split
    · exact ⟨'[', [']'], by simp, rfl, by decide⟩
    · exact ⟨'[', _, by simp; rfl, rfl, by decide⟩
  | record members =>
    rw [jsonText, bracketed]
    split
    · exact ⟨'\x7b', ['\x7d'], by simp, rfl, by decide⟩
    · exact ⟨'\x7b', _, by simp; rfl, rfl, by decide⟩
  | unreadable => exact absurd h id

/-- The texts of items or members, one behind the other with commas and line ends between them. -/
def joined (level : ℕ) (items : List String) : List Char :=
  (("," ++ indent level).intercalate items).toList

theorem joined_singleton (level : ℕ) (item : String) : joined level [item] = item.toList := by
  rw [joined, String.intercalate_singleton]

theorem joined_cons_cons (level : ℕ) (item next : String) (items : List String) :
    joined level (item :: next :: items) =
      item.toList ++ ',' :: ((indent level).toList ++ joined level (next :: items)) := by
  rw [joined, String.intercalate_cons_cons]
  simp [joined]

/-- The first text stands at the front. -/
theorem exists_joined_eq_append (level : ℕ) (item : String) (items : List String) :
    ∃ behind, joined level (item :: items) = item.toList ++ behind := by
  cases items with
  | nil => exact ⟨[], by rw [joined_singleton, List.append_nil]⟩
  | cons next items => exact ⟨_, joined_cons_cons level item next items⟩

theorem toList_bracketed (opening closing : String) (level : ℕ) (item : String)
    (items : List String) :
    (bracketed opening closing level (item :: items)).toList =
      opening.toList ++ (indent (level + 1)).toList ++ joined (level + 1) (item :: items) ++
        (indent level).toList ++ closing.toList := by
  simp [bracketed, joined]

theorem ends_indent (level : ℕ) (rest : List Char) : Ends ((indent level).toList ++ rest) := by
  rw [indent, String.toList_ofList, List.cons_append]
  rintro _ ⟨⟩
  decide

theorem value?_null {space : List Char} (hspace : IsBlanks space) (rest : List Char) (fuel : ℕ) :
    value? (fuel + 1) (space ++ 'n' :: 'u' :: 'l' :: 'l' :: rest) = some (.null, rest) := by
  rw [value?_append hspace (by rintro _ ⟨⟩; rfl)]
  rfl

theorem value?_bool (b : Bool) {space : List Char} (hspace : IsBlanks space) (rest : List Char)
    (fuel : ℕ) :
    value? (fuel + 1) (space ++ ((if b then "true" else "false").toList ++ rest)) =
      some (.bool b, rest) := by
  rw [value?_append hspace (by cases b <;> rintro _ ⟨⟩ <;> rfl)]
  cases b <;> rfl

theorem value?_emptyList {space : List Char} (hspace : IsBlanks space) (rest : List Char)
    (fuel : ℕ) :
    value? (fuel + 1) (space ++ '[' :: ']' :: rest) = some (.array [], rest) := by
  rw [value?_append hspace (by rintro _ ⟨⟩; rfl)]
  rfl

theorem value?_emptyRecord {space : List Char} (hspace : IsBlanks space) (rest : List Char)
    (fuel : ℕ) :
    value? (fuel + 1) (space ++ '\x7b' :: '\x7d' :: rest) = some (.object [], rest) := by
  rw [value?_append hspace (by rintro _ ⟨⟩; rfl)]
  rfl

/-- Behind the opening bracket of a list stand blanks, then its end or its items. -/
theorem value?_bracket (rest : List Char) (fuel : ℕ) :
    value? (fuel + 1) ('[' :: rest) =
      match skipSpace rest with
      | ']' :: rest => some (.array [], rest)
      | rest => (items? fuel rest).map fun (items, rest) => (.array items, rest) := rfl

/-- Behind the opening brace of a record stand blanks, then its end or its members. -/
theorem value?_brace (rest : List Char) (fuel : ℕ) :
    value? (fuel + 1) ('\x7b' :: rest) =
      match skipSpace rest with
      | '\x7d' :: rest => some (.object [], rest)
      | rest => (members? fuel rest).map fun (members, rest) => (.object members, rest) := rfl

/-- A list is read by its items. -/
theorem value?_list {space between tail rest : List Char} (hspace : IsBlanks space)
    (hbetween : IsBlanks between) {c : Char} (hc : isSpace c = false) (hclosing : c ≠ ']')
    {vs : List Value} {fuel : ℕ} (hitems : items? fuel (c :: tail) = some (vs, rest)) :
    value? (fuel + 1) (space ++ '[' :: (between ++ c :: tail)) = some (.array vs, rest) := by
  have hskip : skipSpace (between ++ c :: tail) = c :: tail :=
    skipSpace_append hbetween (by rintro _ ⟨⟩; exact hc)
  rw [value?_append hspace (by rintro _ ⟨⟩; rfl), value?_bracket, hskip]
  split
  · rename_i heq
    exact absurd (List.cons.inj heq).1 hclosing
  · rw [hitems, Option.map_some]

/-- A record is read by its members. -/
theorem value?_record {space between tail rest : List Char} (hspace : IsBlanks space)
    (hbetween : IsBlanks between) {vs : List (Option String × Value)} {fuel : ℕ}
    (hmembers : members? fuel ('"' :: tail) = some (vs, rest)) :
    value? (fuel + 1) (space ++ '\x7b' :: (between ++ '"' :: tail)) = some (.object vs, rest) := by
  have hskip : skipSpace (between ++ '"' :: tail) = '"' :: tail :=
    skipSpace_append hbetween (by rintro _ ⟨⟩; rfl)
  rw [value?_append hspace (by rintro _ ⟨⟩; rfl), value?_brace, hskip]
  split
  · rename_i heq
    exact absurd (List.cons.inj heq).1 (by decide)
  · rw [hmembers, Option.map_some]

theorem toList_bracketed_nil (opening closing : String) (level : ℕ) :
    (bracketed opening closing level []).toList = opening.toList ++ closing.toList := by
  simp [bracketed]

/-- The last item is followed by the closing bracket. -/
theorem items?_last {text space rest : List Char} {v : Value} {fuel : ℕ}
    (hvalue : value? fuel text = some (v, space ++ ']' :: rest)) (hspace : IsBlanks space) :
    items? (fuel + 1) text = some ([v], rest) := by
  have hskip : skipSpace (space ++ ']' :: rest) = ']' :: rest :=
    skipSpace_append hspace (by rintro _ ⟨⟩; rfl)
  rw [items?, hvalue]
  simp only [Option.bind_eq_bind, Option.bind_some, hskip]

/-- Any other item is followed by a comma. -/
theorem items?_comma {text rest rest' : List Char} {v : Value} {vs : List Value} {fuel : ℕ}
    (hvalue : value? fuel text = some (v, ',' :: rest))
    (hitems : items? fuel rest = some (vs, rest')) :
    items? (fuel + 1) text = some (v :: vs, rest') := by
  have hskip : skipSpace (',' :: rest) = ',' :: rest :=
    skipSpace_append isBlanks_nil (by rintro _ ⟨⟩; rfl)
  rw [items?, hvalue]
  simp only [Option.bind_eq_bind, Option.bind_some, hskip, hitems]

theorem skipSpace_colon (rest : List Char) : skipSpace (':' :: rest) = ':' :: rest :=
  skipSpace_append isBlanks_nil (by rintro _ ⟨⟩; rfl)

/-- The last member is followed by the closing brace. -/
theorem members?_last (name : String) {space valueText closing rest : List Char} {v : Value}
    {fuel : ℕ} (hspace : IsBlanks space)
    (hvalue : value? fuel valueText = some (v, closing ++ '\x7d' :: rest))
    (hclosing : IsBlanks closing) :
    members? (fuel + 1) (space ++ ((jsonString name).toList ++ ':' :: valueText)) =
      some ([(some name, v)], rest) := by
  have hskip : skipSpace (closing ++ '\x7d' :: rest) = '\x7d' :: rest :=
    skipSpace_append hclosing (by rintro _ ⟨⟩; rfl)
  rw [jsonString_append, members?, skipSpace_append hspace (by rintro _ ⟨⟩; rfl)]
  simp only [string?_jsonString, skipSpace_colon, hvalue, hskip, Option.bind_eq_bind,
    Option.bind_some]

/-- Any other member is followed by a comma. -/
theorem members?_comma (name : String) {space valueText rest rest' : List Char} {v : Value}
    {vs : List (Option String × Value)} {fuel : ℕ} (hspace : IsBlanks space)
    (hvalue : value? fuel valueText = some (v, ',' :: rest))
    (hmembers : members? fuel rest = some (vs, rest')) :
    members? (fuel + 1) (space ++ ((jsonString name).toList ++ ':' :: valueText)) =
      some ((some name, v) :: vs, rest') := by
  have hskip : skipSpace (',' :: rest) = ',' :: rest :=
    skipSpace_append isBlanks_nil (by rintro _ ⟨⟩; rfl)
  rw [jsonString_append, members?, skipSpace_append hspace (by rintro _ ⟨⟩; rfl)]
  simp only [string?_jsonString, skipSpace_colon, hvalue, hskip, hmembers, Option.bind_eq_bind,
    Option.bind_some]

mutual

/-- A datum that JSON can hold is read off the front of a text. -/
theorem exists_value?_jsonText (d : Datum) (level fuel : ℕ) (space rest : List Char) (h : InJson d)
    (hspace : IsBlanks space) (hrest : Ends rest)
    (hfuel : (jsonText level d).toList.length ≤ fuel) :
      ∃ v, value? fuel (space ++ ((jsonText level d).toList ++ rest)) = some (v, rest) ∧
        ofJson v = d := by
  obtain ⟨c, tail, hfront, -⟩ := exists_jsonText_eq_cons h level
  obtain ⟨fuel, rfl⟩ : ∃ more, fuel = more + 1 := by
    rw [hfront, List.length_cons] at hfuel
    exact Nat.exists_eq_succ_of_ne_zero (by omega)
  cases d with
  | null =>
    refine ⟨.null, ?_, rfl⟩
    rw [jsonText]
    exact value?_null hspace rest fuel
  | bool b =>
    refine ⟨.bool b, ?_, rfl⟩
    rw [jsonText]
    exact value?_bool b hspace rest fuel
  | integer n =>
    rw [jsonText]
    exact value?_integer h hspace hrest fuel
  | real x =>
    rw [jsonText]
    exact value?_real h hspace hrest fuel
  | text s =>
    rw [jsonText]
    exact ⟨_, value?_string s hspace rest fuel, rfl⟩
  | list items =>
    rw [jsonText] at hfuel ⊢
    cases items with
    | nil =>
      refine ⟨.array [], ?_, rfl⟩
      rw [jsonItems, toList_bracketed_nil]
      exact value?_emptyList hspace rest fuel
    | cons item items =>
      obtain ⟨c, front, hitem, hc, hclosing⟩ := exists_jsonText_eq_cons h.1 (level + 1)
      obtain ⟨behind, hjoined⟩ := exists_joined_eq_append (level + 1) (jsonText (level + 1) item)
        (jsonItems (level + 1) items)
      have hshape :=
        toList_bracketed "[" "]" level (jsonText (level + 1) item) (jsonItems (level + 1) items)
      rw [jsonItems, hshape] at hfuel ⊢
      simp only [List.length_append, String.length_toList] at hfuel
      obtain ⟨vs, hread, hvs⟩ := exists_items?_joined (item :: items) (level + 1) level fuel [] rest
        (List.cons_ne_nil _ _) h isBlanks_nil (by
          rw [jsonItems]
          have hmarks : "[".length = 1 ∧ "]".length = 1 := by decide
          omega)
      rw [jsonItems, hjoined, hitem] at hread
      rw [hjoined, hitem]
      refine ⟨.array vs, ?_, ?_⟩
      · have := value?_list hspace (isBlanks_indent (level + 1)) hc hclosing hread
        simpa using this
      · rw [ofJson, hvs]
  | record members =>
    rw [jsonText] at hfuel ⊢
    cases members with
    | nil =>
      refine ⟨.object [], ?_, rfl⟩
      rw [jsonMembers, toList_bracketed_nil]
      exact value?_emptyRecord hspace rest fuel
    | cons member members =>
      obtain ⟨name, value⟩ := member
      obtain ⟨behind, hjoined⟩ := exists_joined_eq_append (level + 1)
        (jsonString (name.getD "") ++ ": " ++ jsonText (level + 1) value)
        (jsonMembers (level + 1) members)
      have hshape := toList_bracketed "\x7b" "\x7d" level
        (jsonString (name.getD "") ++ ": " ++ jsonText (level + 1) value)
        (jsonMembers (level + 1) members)
      rw [jsonMembers, hshape] at hfuel ⊢
      simp only [List.length_append, String.length_toList] at hfuel
      obtain ⟨vs, hread, hvs⟩ :=
        exists_members?_joined ((name, value) :: members) (level + 1) level fuel [] rest
          (List.cons_ne_nil _ _) h isBlanks_nil (by
            rw [jsonMembers]
            have hmarks : "\x7b".length = 1 ∧ "\x7d".length = 1 := by decide
            omega)
      rw [jsonMembers, hjoined] at hread
      rw [hjoined]
      simp only [String.toList_append, jsonString, String.toList_ofList, List.cons_append,
        List.nil_append] at hread ⊢
      refine ⟨.object vs, ?_, ?_⟩
      · have := value?_record hspace (isBlanks_indent (level + 1)) hread
        simpa using this
      · rw [ofJson, hvs]
  | unreadable => exact absurd h id
termination_by structural d

/-- Items up to the closing bracket are read as they were written. -/
theorem exists_items?_joined (items : List Datum) (level closing fuel : ℕ) (space rest : List Char)
    (hne : items ≠ []) (h : InJsonItems items) (hspace : IsBlanks space)
    (hfuel : (joined level (jsonItems level items)).length < fuel) :
      ∃ vs, items? fuel (space ++ (joined level (jsonItems level items) ++
        ((indent closing).toList ++ ']' :: rest))) = some (vs, rest) ∧ ofJsonItems vs = items := by
  obtain ⟨fuel, rfl⟩ := Nat.exists_eq_succ_of_ne_zero (Nat.ne_of_gt (Nat.zero_lt_of_lt hfuel))
  cases items with
  | nil => exact absurd rfl hne
  | cons item items =>
    cases items with
    | nil =>
      rw [jsonItems, jsonItems, joined_singleton] at hfuel ⊢
      obtain ⟨v, hread, hv⟩ :=
        exists_value?_jsonText item level fuel space ((indent closing).toList ++ ']' :: rest)
          h.1 hspace (ends_indent closing _) (by omega)
      refine ⟨[v], items?_last hread (isBlanks_indent closing), ?_⟩
      rw [ofJsonItems, hv, ofJsonItems]
    | cons next items =>
      have hshape : joined level (jsonItems level (item :: next :: items)) =
          (jsonText level item).toList ++
          ',' :: ((indent level).toList ++ joined level (jsonItems level (next :: items))) :=
        joined_cons_cons level _ _ _
      rw [hshape] at hfuel ⊢
      simp only [List.length_append, List.length_cons, List.append_assoc, List.cons_append]
        at hfuel ⊢
      obtain ⟨vs, hread, hvs⟩ :=
        exists_items?_joined (next :: items) level closing fuel (indent level).toList rest
          (List.cons_ne_nil _ _) h.2 (isBlanks_indent level) (by omega)
      obtain ⟨v, hfirst, hv⟩ :=
        exists_value?_jsonText item level fuel space (',' :: ((indent level).toList ++
          (joined level (jsonItems level (next :: items)) ++
            ((indent closing).toList ++ ']' :: rest))))
          h.1 hspace (by rintro _ ⟨⟩; decide) (by omega)
      refine ⟨v :: vs, items?_comma hfirst hread, ?_⟩
      rw [ofJsonItems, hv, hvs]
termination_by structural items

/-- Members up to the closing brace are read as they were written. -/
theorem exists_members?_joined (members : List (Option String × Datum)) (level closing fuel : ℕ)
    (space rest : List Char) (hne : members ≠ []) (h : InJsonMembers members)
    (hspace : IsBlanks space) (hfuel : (joined level (jsonMembers level members)).length < fuel) :
      ∃ vs, members? fuel (space ++ (joined level (jsonMembers level members) ++
        ((indent closing).toList ++ '\x7d' :: rest))) = some (vs, rest) ∧
          ofJsonMembers vs = members := by
  obtain ⟨fuel, rfl⟩ := Nat.exists_eq_succ_of_ne_zero (Nat.ne_of_gt (Nat.zero_lt_of_lt hfuel))
  cases members with
  | nil => exact absurd rfl hne
  | cons member members =>
    obtain ⟨name, value⟩ := member
    obtain ⟨hname, hvalue, hmembers⟩ := h
    obtain ⟨name, rfl⟩ := Option.isSome_iff_exists.1 hname
    cases members with
    | nil =>
      rw [jsonMembers, jsonMembers, joined_singleton] at hfuel ⊢
      simp only [String.toList_append, List.length_append] at hfuel
      obtain ⟨v, hread, hv⟩ :=
        exists_value?_jsonText value level fuel [' '] ((indent closing).toList ++ '\x7d' :: rest)
          hvalue isBlanks_space (ends_indent closing _) (by omega)
      refine ⟨[(some name, v)], ?_, ?_⟩
      · have := members?_last name hspace hread (isBlanks_indent closing)
        simpa using this
      · rw [ofJsonMembers, hv, ofJsonMembers]
    | cons next members =>
      obtain ⟨nextName, nextValue⟩ := next
      have hshape : joined level
          (jsonMembers level ((some name, value) :: (nextName, nextValue) :: members)) =
          (jsonString name ++ ": " ++ jsonText level value).toList ++
            ',' :: ((indent level).toList ++ joined level
                (jsonMembers level ((nextName, nextValue) :: members))) :=
        joined_cons_cons level _ _ _
      rw [hshape] at hfuel ⊢
      simp only [String.toList_append, List.length_append, List.length_cons, List.append_assoc,
        List.cons_append] at hfuel ⊢
      obtain ⟨vs, hread, hvs⟩ :=
        exists_members?_joined ((nextName, nextValue) :: members) level closing fuel
          (indent level).toList rest (List.cons_ne_nil _ _) hmembers (isBlanks_indent level)
          (by omega)
      obtain ⟨v, hfirst, hv⟩ :=
        exists_value?_jsonText value level fuel [' '] (',' :: ((indent level).toList ++
          (joined level (jsonMembers level ((nextName, nextValue) :: members)) ++
            ((indent closing).toList ++ '\x7d' :: rest)))) hvalue isBlanks_space
              (by rintro _ ⟨⟩; decide) (by omega)
      refine ⟨(some name, v) :: vs, ?_, ?_⟩
      · have := members?_comma name hspace hfirst hread
        simpa using this
      · rw [ofJsonMembers, hv, hvs]
termination_by structural members

end

/-- Data that JSON can hold are read back from their text. -/
theorem ofJsonText?_jsonText {d : Datum} (h : InJson d) : ofJsonText? (jsonText 0 d) = some d := by
  obtain ⟨v, hread, hv⟩ :=
    exists_value?_jsonText d 0 (2 * (jsonText 0 d).toList.length + 2) [] [] h isBlanks_nil
    ends_nil (by omega)
  rw [List.nil_append, List.append_nil] at hread
  rw [ofJsonText?, parse?]
  simp only [hread, Option.bind_eq_bind, Option.bind_some]
  simp [skipSpace, hv]

end Turnery.Datum
