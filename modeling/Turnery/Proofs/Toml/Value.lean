import Turnery.Proofs.Toml.Number
import Turnery.Proofs.Toml.String

/-!
# TOML values read back

Every value that a section can hold is read from the text that is written for it:
`exists_value?_tomlValue?`. Lists of texts are arrays: empty ones and those of one item stand within
a line, longer ones have a line for each item.
-/

namespace Turnery.Toml.Reader

open Lexical
open Datum (ofToml ofTomlItems tomlArray tomlInteger? tomlReal tomlString tomlValue?)

theorem endsString_of_endsValue {rest : List Char} (h : EndsValue rest) : EndsString rest :=
  ⟨h.imp (by decide) (by decide) (by decide), h.imp (by decide) (by decide) (by decide)⟩

/-- What starts like a number is read as one. -/
theorem value?_eq_numeric? {c : Char} (hc : c = '-' ∨ c.isDigit = true ∨ c = ']') (room : ℕ)
    (rest : List Char) :
    value? room (c :: rest) = numeric? (c :: rest) := by
  have hother : c ≠ '[' ∧ c ≠ '\x7b' ∧ c ≠ 't' ∧ c ≠ 'f' ∧ c ≠ '"' ∧ c ≠ '\'' := by
    refine ⟨?_, ?_, ?_, ?_, ?_, ?_⟩ <;> (rintro rfl; revert hc; decide)
  obtain ⟨hlist, htable, htrue, hfalse, hmark, hapostrophe⟩ := hother
  rw [value?.eq_def]
  split
  · rename_i heq
    exact absurd (List.cons.inj heq).1 hlist
  · rename_i heq
    exact absurd (List.cons.inj heq).1 htable
  · rename_i heq
    exact absurd (List.cons.inj heq).1 htrue
  · rename_i heq
    exact absurd (List.cons.inj heq).1 hfalse
  · rename_i heq
    exact absurd (List.cons.inj heq).1 hmark
  · rename_i heq
    exact absurd (List.cons.inj heq).1 hapostrophe
  · rfl

/-- A number is read as one, whatever its sign. -/
theorem value?_numberText (negative : Bool) {body whole fraction exponent : List Char}
    (h : Number.IsNumberText body whole fraction exponent) (room : ℕ) (rest : List Char) :
    value? room ((if negative then ['-'] else []) ++ body ++ rest) =
      numeric? ((if negative then ['-'] else []) ++ body ++ rest) := by
  obtain ⟨c, tail, htext, hc⟩ := Json.Lexeme.exists_cons_of_isNumberText negative h
  rw [htext, List.cons_append]
  exact value?_eq_numeric? (hc.imp_right .inl) room (tail ++ rest)

theorem value?_tomlInteger? {n : ℤ} {text : String} (h : tomlInteger? n = some text)
    {rest : List Char} (hrest : EndsValue rest) (room : ℕ) :
    value? room (text.toList ++ rest) = some (.integer n, rest) := by
  have hnumeric := numeric?_tomlInteger? h hrest
  obtain ⟨m, -, rfl⟩ := Option.map_eq_some_iff.1 h
  have hread := value?_numberText (decide (m < 0)) (Number.isNumberText_digits m.natAbs) room rest
  simp only [decide_eq_true_eq, ← Json.Lexeme.toList_integerText] at hread
  rw [hread, hnumeric]

theorem value?_tomlReal {x : Float} (h : x.isFinite = true) {rest : List Char}
    (hrest : EndsValue rest) (room : ℕ) :
    value? room ((tomlReal x).toList ++ rest) = some (.real x, rest) := by
  have hnumeric := numeric?_tomlReal h hrest
  obtain ⟨negative, mantissa, exponent, hx⟩ := Number.Binary64.isFinite_iff.1 h
  obtain ⟨body, value, whole, fraction, htext, hshape, -⟩ :=
    Number.FloatStyle.exists_tomlFloat_text hx
  have hread := value?_numberText negative hshape.isNumberText room rest
  rw [← htext] at hread
  rw [tomlReal, Number.isNaN_of_isFinite h, if_neg Bool.false_ne_true] at hnumeric ⊢
  rw [hread, hnumeric]

theorem exists_tomlString_eq_cons (s : String) :
    ∃ mark tail, (tomlString s).toList = mark :: tail ∧ (mark = '"' ∨ mark = '\'') := by
  rw [tomlString, String.toList_ofList]
  split
  · exact ⟨'"', _, rfl, .inl rfl⟩
  split
  · exact ⟨'\'', _, rfl, .inr rfl⟩
  split
  · exact ⟨'"', _, rfl, .inl rfl⟩
  split
  · exact ⟨'\'', _, rfl, .inr rfl⟩
  split
  · exact ⟨'"', _, rfl, .inl rfl⟩
  · exact ⟨'"', _, rfl, .inl rfl⟩

/-- What starts with a mark is read as a text, as deep as it may stand. -/
theorem value?_eq_string? {mark : Char} (hmark : mark = '"' ∨ mark = '\'') (room : ℕ)
    (rest : List Char) :
    value? room (mark :: rest) = (string? (mark :: rest)).map fun (s, rest) =>
      (.text (String.ofList s), rest) := by
  rcases hmark with rfl | rfl <;> cases room <;> rfl

theorem value?_tomlString (s : String) {rest : List Char} (hrest : EndsValue rest) (room : ℕ) :
    value? room ((tomlString s).toList ++ rest) = some (.text s, rest) := by
  have hread := string?_tomlString s (endsString_of_endsValue hrest)
  obtain ⟨mark, tail, htext, hmark⟩ := exists_tomlString_eq_cons s
  rw [htext, List.cons_append] at hread ⊢
  simp only [value?_eq_string? hmark, hread, Option.map_some, String.ofList_toList]

theorem value?_bool (b : Bool) (rest : List Char) (room : ℕ) :
    value? room ((if b then "true" else "false").toList ++ rest) = some (.bool b, rest) := by
  cases b <;> cases room <;> rfl

theorem skipLines?_of_not_blank {c : Char} (hblank : isBlank c = false)
    (hother : c ≠ '\n' ∧ c ≠ '\r' ∧ c ≠ '#') (rest : List Char) :
    skipLines? false (c :: rest) = some (c :: rest) := by
  obtain ⟨hfeed, hreturn, hcomment⟩ := hother
  rw [skipLines?.eq_def]
  split
  · rename_i heq
    cases heq
  · rename_i heq
    exact absurd (List.cons.inj heq).1 hfeed
  · rename_i heq
    exact absurd (List.cons.inj heq).1 hreturn
  · rename_i heq
    obtain ⟨rfl, rfl⟩ := List.cons.inj heq
    rw [if_neg Bool.false_ne_true, hblank, if_neg Bool.false_ne_true,
      if_neg (by simpa using hcomment)]

theorem value?_closing (room : ℕ) (rest : List Char) : value? room (']' :: rest) = none := by
  have hmoment : moment? (']' :: rest) = none :=
    @moment?_eq_none [] _ nofun (by rintro _ ⟨⟩; decide)
  rw [value?_eq_numeric? (.inr (.inr rfl)), numeric?, hmoment]
  rfl

theorem skipLines?_tomlString (s : String) (rest : List Char) :
    skipLines? false ((tomlString s).toList ++ rest) = some ((tomlString s).toList ++ rest) := by
  obtain ⟨mark, tail, htext, hmark⟩ := exists_tomlString_eq_cons s
  rw [htext, List.cons_append]
  rcases hmark with rfl | rfl
  · exact skipLines?_of_not_blank rfl (by decide) (tail ++ rest)
  · exact skipLines?_of_not_blank rfl (by decide) (tail ++ rest)

theorem skipLines?_of_endsItem {rest : List Char}
    (hrest : ∃ c tail, rest = c :: tail ∧ (c = ',' ∨ c = ']')) :
    skipLines? false rest = some rest := by
  obtain ⟨c, tail, rfl, rfl | rfl⟩ := hrest
  · exact skipLines?_of_not_blank rfl (by decide) tail
  · exact skipLines?_of_not_blank rfl (by decide) tail

/-- A text in an array is read together with the line end and the blanks before it. -/
theorem spaced?_tomlString (s : String) {text rest : List Char}
    (htext : skipLines? false text = some ((tomlString s).toList ++ rest))
    (hrest : ∃ c tail, rest = c :: tail ∧ (c = ',' ∨ c = ']')) (room : ℕ) :
    spaced? (value? room) text = some (.text s, rest) := by
  have hends : EndsValue rest := by
    obtain ⟨c, tail, rfl, rfl | rfl⟩ := hrest
    · rintro _ ⟨⟩
      decide
    · rintro _ ⟨⟩
      decide
  rw [spaced?, htext]
  simp only [Option.bind_eq_bind, Option.bind_some, value?_tomlString s hends,
    skipLines?_of_endsItem hrest]

section Separated

variable {α : Type} {item : List Char → Option (α × List Char)} {text rest : List Char} {x : α}
  {fuel : ℕ}

theorem separated?_comma {xs : List α} {behind : List Char}
    (hitem : item text = some (x, ',' :: rest))
    (hmore : separated? item fuel rest = some (xs, behind)) :
    separated? item (fuel + 1) text = some (x :: xs, behind) := by
  change (item text >>= _) = _
  simp only [hitem, Option.bind_eq_bind, Option.bind_some, hmore]

theorem separated?_last_comma (hitem : item text = some (x, ',' :: rest))
    (hnone : separated? item fuel rest = none) :
    separated? item (fuel + 1) text = some ([x], ',' :: rest) := by
  change (item text >>= _) = _
  simp only [hitem, Option.bind_eq_bind, Option.bind_some, hnone]

theorem separated?_last (hitem : item text = some (x, rest)) (hrest : ∀ c ∈ rest.head?, c ≠ ',') :
    separated? item (fuel + 1) text = some ([x], rest) := by
  change (item text >>= _) = _
  simp only [hitem, Option.bind_eq_bind, Option.bind_some]
  split
  · exact absurd rfl (hrest ',' rfl)
  · rfl

theorem separated?_none (hitem : item text = none) : separated? item fuel text = none := by
  cases fuel with
  | zero => rfl
  | succ fuel =>
    change (item text >>= _) = _
    rw [hitem]
    rfl

end Separated

/-- Behind the last item there is no other. -/
theorem spaced?_closing {text rest : List Char} (htext : skipLines? false text = some (']' :: rest))
    (room : ℕ) :
    spaced? (value? room) text = none := by
  change (skipLines? false text >>= fun rest => value? room rest >>= _) = _
  simp only [htext, Option.bind_eq_bind, Option.bind_some, value?_closing, Option.bind_none]

def itemLines (items : List String) : List Char :=
  items.flatMap fun item => '\n' :: ' ' :: ' ' :: ' ' :: ' ' :: (item.toList ++ [','])

theorem itemLines_cons_append (item : String) (items : List String) (rest : List Char) :
    itemLines (item :: items) ++ rest =
      '\n' :: ' ' :: ' ' :: ' ' :: ' ' :: (item.toList ++ (',' :: (itemLines items ++ rest))) := by
  simp [itemLines]

theorem skipLines?_indented (text : List Char) :
    skipLines? false ('\n' :: ' ' :: ' ' :: ' ' :: ' ' :: text) = skipLines? false text := rfl

/-- The lines of items are read up to the last comma. -/
theorem separated?_itemLines (s : String) (ss : List String) {fuel : ℕ} (hfuel : ss.length < fuel)
    (room : ℕ) (rest : List Char) :
    separated? (spaced? (value? room)) fuel
      (itemLines ((s :: ss).map tomlString) ++ '\n' :: ']' :: rest) =
      some ((s :: ss).map .text, ',' :: '\n' :: ']' :: rest) := by
  induction ss generalizing s fuel with
  | nil =>
    obtain ⟨fuel, rfl⟩ := Nat.exists_eq_add_one.2 (Nat.zero_lt_of_lt hfuel)
    have hnone : separated? (spaced? (value? room)) fuel ('\n' :: ']' :: rest) = none :=
      separated?_none (spaced?_closing rfl room)
    rw [List.map_singleton, itemLines_cons_append]
    refine separated?_last_comma (spaced?_tomlString s ?_ ⟨',', _, rfl, .inl rfl⟩ room) hnone
    rw [skipLines?_indented, skipLines?_tomlString]
    rfl
  | cons next ss ih =>
    obtain ⟨fuel, rfl⟩ := Nat.exists_eq_add_one.2 (Nat.zero_lt_of_lt hfuel)
    have hmore := ih next (Nat.succ_lt_succ_iff.1 hfuel)
    rw [List.map_cons, itemLines_cons_append]
    refine separated?_comma (spaced?_tomlString s ?_ ⟨',', _, rfl, .inl rfl⟩ room) hmore
    rw [skipLines?_indented, skipLines?_tomlString]

theorem skipLines?_bracket (rest : List Char) :
    skipLines? false (']' :: rest) = some (']' :: rest) :=
  skipLines?_of_not_blank rfl (by decide) rest

theorem expect?_self (c : Char) (rest : List Char) : expect? c (c :: rest) = some rest := by
  rw [expect?, if_pos (beq_self_eq_true c)]

theorem items?_of_separated {text behind rest : List Char} {nodes : List Node} {room : ℕ}
    (hitems : separated? (spaced? (value? room)) (text.length + 1) text = some (nodes, behind))
    (hclosing : skipLines? false (skipComma behind) = some (']' :: rest)) :
    items? (value? room) text = some (nodes, rest) := by
  rw [items?, hitems]
  simp only [hclosing, Option.bind_eq_bind, Option.bind_some, expect?_self]

theorem toList_tomlArray_lines (item next : String) (items : List String) :
    (tomlArray (item :: next :: items)).toList =
      '[' :: itemLines (item :: next :: items) ++ ['\n', ']'] := by
  simp [tomlArray, itemLines, String.toList_join, List.flatMap_map]

theorem length_le_itemLines (items : List String) : items.length ≤ (itemLines items).length := by
  induction items with
  | nil => exact Nat.le_refl 0
  | cons item items ih =>
    have := congrArg List.length (itemLines_cons_append item items [])
    simp only [List.append_nil, List.length_cons, List.length_append] at this ⊢
    omega

/-- An array of texts is read item by item, however it is laid out. -/
theorem items?_tomlArray (ss : List String) (room : ℕ) (rest : List Char) :
    ∃ text, (tomlArray (ss.map tomlString)).toList ++ rest = '[' :: text ∧
      items? (value? room) text = some (ss.map .text, rest) := by
  match ss with
  | [] =>
    refine ⟨']' :: rest, rfl, ?_⟩
    rw [items?, separated?_none (spaced?_closing (skipLines?_bracket rest) room),
      skipLines?_bracket]
    simp only [Option.bind_eq_bind, Option.bind_some, expect?_self, List.map_nil]
  | [s] =>
    refine ⟨(tomlString s).toList ++ ']' :: rest, by simp [tomlArray], ?_⟩
    have hitem :=
      spaced?_tomlString s (skipLines?_tomlString s (']' :: rest)) ⟨']', rest, rfl, .inr rfl⟩ room
    exact items?_of_separated (separated?_last hitem (by rintro _ ⟨⟩; decide))
      (skipLines?_bracket rest)
  | s :: next :: ss =>
    refine ⟨itemLines ((s :: next :: ss).map tomlString) ++ '\n' :: ']' :: rest, ?_, ?_⟩
    · rw [List.map_cons, List.map_cons, toList_tomlArray_lines, List.append_assoc]
      rfl
    · have hfuel := length_le_itemLines ((s :: next :: ss).map tomlString)
      rw [List.length_map, List.length_cons] at hfuel
      refine items?_of_separated (separated?_itemLines s (next :: ss) ?_ room rest)
        (skipLines?_bracket rest)
      rw [List.length_append]
      omega

theorem value?_list (ss : List String) (room : ℕ) (rest : List Char) :
    value? (room + 1) ((tomlArray (ss.map tomlString)).toList ++ rest) =
      some (.array (ss.map .text), rest) := by
  obtain ⟨text, htext, hitems⟩ := items?_tomlArray ss room rest
  rw [htext]
  change (items? (value? room) text).map _ = _
  rw [hitems]
  rfl

theorem texts_of_mapM {items : List Datum} {texts : List String}
    (h : (items.mapM fun | .text s => some (tomlString s) | _ => none) = some texts) :
    ∃ ss : List String, items = ss.map .text ∧ texts = ss.map tomlString := by
  induction items generalizing texts with
  | nil =>
    obtain rfl := Option.some.inj h
    exact ⟨[], rfl, rfl⟩
  | cons item items ih =>
    rw [List.mapM_cons] at h
    cases item with
    | text s =>
      obtain ⟨_, ⟨⟩, h⟩ := Option.bind_eq_some_iff.1 h
      obtain ⟨others, hothers, htexts⟩ := Option.bind_eq_some_iff.1 h
      obtain rfl := Option.some.inj htexts
      obtain ⟨ss, rfl, rfl⟩ := ih hothers
      exact ⟨s :: ss, rfl, rfl⟩
    | _ => cases h

theorem ofTomlItems_texts (ss : List String) : ofTomlItems (ss.map .text) = ss.map .text := by
  induction ss with
  | nil => rfl
  | cons s ss ih => rw [List.map_cons, List.map_cons, ofTomlItems, ih, ofToml]

theorem isBlank_of_number {c : Char} (hc : c = '-' ∨ c.isDigit = true) : isBlank c = false := by
  have hother : c ≠ ' ' ∧ c ≠ '\t' := by
    refine ⟨?_, ?_⟩ <;> (rintro rfl; revert hc; decide)
  simp [isBlank, hother]

/-- No value starts with a blank. -/
theorem exists_tomlValue?_eq_cons {d : Datum} {text : String} (h : tomlValue? d = some text)
    (hfinite : ∀ x, d = .real x → x.isFinite = true) :
    ∃ c tail, text.toList = c :: tail ∧ isBlank c = false := by
  cases d with
  | null => cases h
  | record => cases h
  | unreadable => cases h
  | bool b =>
    obtain rfl := Option.some.inj h
    cases b with
    | true => exact ⟨'t', _, rfl, rfl⟩
    | false => exact ⟨'f', _, rfl, rfl⟩
  | integer n =>
    obtain ⟨m, -, rfl⟩ := Option.map_eq_some_iff.1 h
    obtain ⟨c, tail, htext, hc⟩ :=
      Json.Lexeme.exists_cons_of_isNumberText (decide (m < 0)) (Number.isNumberText_digits m.natAbs)
    simp only [decide_eq_true_eq, ← Json.Lexeme.toList_integerText] at htext
    exact ⟨c, tail, htext, isBlank_of_number hc⟩
  | real x =>
    obtain rfl := Option.some.inj h
    have hx := hfinite x rfl
    obtain ⟨negative, mantissa, exponent, hfloat⟩ := Number.Binary64.isFinite_iff.1 hx
    obtain ⟨body, value, whole, fraction, htext, hshape, -⟩ :=
      Number.FloatStyle.exists_tomlFloat_text hfloat
    obtain ⟨c, tail, hcons, hc⟩ :=
      Json.Lexeme.exists_cons_of_isNumberText negative hshape.isNumberText
    rw [tomlReal, Number.isNaN_of_isFinite hx, if_neg Bool.false_ne_true, htext]
    exact ⟨c, tail, hcons, isBlank_of_number hc⟩
  | text s =>
    obtain rfl := Option.some.inj h
    obtain ⟨mark, tail, htext, rfl | rfl⟩ := exists_tomlString_eq_cons s
    · exact ⟨'"', tail, htext, rfl⟩
    · exact ⟨'\'', tail, htext, rfl⟩
  | list items =>
    obtain ⟨texts, htexts, rfl⟩ := Option.map_eq_some_iff.1 h
    obtain ⟨ss, rfl, rfl⟩ := texts_of_mapM htexts
    obtain ⟨text, htext, -⟩ := items?_tomlArray ss 0 []
    rw [List.append_nil] at htext
    exact ⟨'[', text, htext, rfl⟩

/-- A value is read as it was written, doubles as long as they are finite. -/
theorem exists_value?_tomlValue? {d : Datum} {text : String} (h : tomlValue? d = some text)
    (hfinite : ∀ x, d = .real x → x.isFinite = true) {rest : List Char} (hrest : EndsValue rest)
    (room : ℕ) :
    ∃ node, value? (room + 1) (text.toList ++ rest) = some (node, rest) ∧ ofToml node = d := by
  cases d with
  | null => cases h
  | record => cases h
  | unreadable => cases h
  | bool b =>
    obtain rfl := Option.some.inj h
    exact ⟨.bool b, value?_bool b rest (room + 1), rfl⟩
  | integer n =>
    exact ⟨.integer n, value?_tomlInteger? h hrest (room + 1), rfl⟩
  | real x =>
    obtain rfl := Option.some.inj h
    exact ⟨.real x, value?_tomlReal (hfinite x rfl) hrest (room + 1), rfl⟩
  | text s =>
    obtain rfl := Option.some.inj h
    exact ⟨.text s, value?_tomlString s hrest (room + 1), rfl⟩
  | list items =>
    obtain ⟨texts, htexts, rfl⟩ := Option.map_eq_some_iff.1 h
    obtain ⟨ss, rfl, rfl⟩ := texts_of_mapM htexts
    refine ⟨_, value?_list ss room rest, ?_⟩
    rw [ofToml, ofTomlItems_texts]

end Turnery.Toml.Reader
