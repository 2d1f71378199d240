import Turnery.Dxf.Scan
import Turnery.Proofs.Text.Trim

/-!
# Groups as text

A group is written as two lines, one for its code and one for its value. Blanks around either do not
count, and a line may end as on any system. `groups_of_isWritten` says that the groups of a text are
those it was written from.
-/

namespace Turnery.Number

def IsIntegerChar (c : Char) : Prop :=
  c.isDigit = true ∨ c = '-' ∨ c = '+'

theorem isDigit_of_readUpTo {limit n m : Nat} {excess : IntegerError} {ds : List Char}
    (h : readUpTo limit excess n ds = .ok m) : ∀ c ∈ ds, c.isDigit = true := by
  induction ds generalizing n with
  | nil => exact List.forall_mem_nil _
  | cons c rest ih =>
    rw [readUpTo] at h
    split at h
    · nomatch h
    · rename_i hc
      split at h
      · nomatch h
      · exact List.forall_mem_cons.2 ⟨by simpa using hc, ih h⟩

theorem exists_ok_of_map {ε α β : Type} {f : α → β} {result : Except ε α} {b : β}
    (h : result.map f = .ok b) :
    ∃ a, result = .ok a := by
  cases result with
  | error e => nomatch h
  | ok a => exact ⟨a, rfl⟩

/-- An integer is made of digits and signs. -/
theorem isIntegerChar_of_int32? {text : List Char} {value : Int} (h : int32? text = some value) :
    ∀ c ∈ text, IsIntegerChar c := by
  cases hread : readInt (Nat.pow 2 31 - 1) text with
  | error e =>
    rw [int32?, hread] at h
    nomatch h
  | ok n =>
    unfold readInt at hread
    split at hread
    · nomatch hread
    · nomatch hread
    · nomatch hread
    · obtain ⟨n, hn⟩ := exists_ok_of_map hread
      obtain ⟨m, hm⟩ := exists_ok_of_map hn
      exact List.forall_mem_cons.2 ⟨.inr (.inl rfl), fun c hc => .inl (isDigit_of_readUpTo hm c hc)⟩
    · obtain ⟨m, hm⟩ := exists_ok_of_map hread
      exact List.forall_mem_cons.2 ⟨.inr (.inr rfl), fun c hc => .inl (isDigit_of_readUpTo hm c hc)⟩
    · obtain ⟨m, hm⟩ := exists_ok_of_map hread
      exact fun c hc => .inl (isDigit_of_readUpTo hm c hc)

theorem IsIntegerChar.isBlank_eq_false {c : Char} (h : IsIntegerChar c) :
    Text.isBlank c = false := by
  obtain h | rfl | rfl := h
  · exact Text.isBlank_eq_false_of_isDigit h
  · decide
  · decide

theorem IsIntegerChar.ne_lineFeed {c : Char} (h : IsIntegerChar c) : c ≠ '\n' := by
  rintro rfl
  exact absurd h.isBlank_eq_false (by decide)

end Turnery.Number

namespace Turnery.Dxf.Scan

open Text (isBlank IsTrimmed IsLineEnd trim lines)

/-- Blanks within a line. -/
def IsPadding (text : List Char) : Prop :=
  ∀ c ∈ text, isBlank c = true ∧ c ≠ '\n'

instance (text : List Char) : Decidable (IsPadding text) :=
  List.decidableBAll (fun c => isBlank c = true ∧ c ≠ '\n') text

/-- A line with a content, blanks around it, and its end. -/
inductive IsLineOf (content : List Char) : List Char → Prop where
  | intro {before after lineEnd : List Char} (before_padding : IsPadding before)
    (after_padding : IsPadding after)
    (ended : IsLineEnd lineEnd) : IsLineOf content (before ++ (content ++ (after ++ lineEnd)))

/-- Groups, and a text that is written for them: of each a line with a numeral of its code and a
line with its value. -/
inductive IsWritten : List Group → List Char → Prop where
  | nil : IsWritten [] []
  | cons {group : Group} {rest : List Group} {code codeLine valueLine text : List Char}
    (code_eq : Number.int32? code = some group.code) (code_written : IsLineOf code codeLine)
    (value_trimmed : IsTrimmed group.value.toList) (value_plain : '\n' ∉ group.value.toList)
    (value_written : IsLineOf group.value.toList valueLine) (rest_written : IsWritten rest text) :
    IsWritten (group :: rest) (codeLine ++ (valueLine ++ text))

theorem IsLineOf.exists_line {content line : List Char} (h : IsLineOf content line)
    (trimmed : IsTrimmed content) (plain : '\n' ∉ content) (rest : List Char) :
    ∃ first, lines (line ++ rest) = first :: lines rest ∧ trim first = content := by
  obtain ⟨hbefore, hafter, hend⟩ := h
  rename_i before after lineEnd
  have hplain : '\n' ∉ before ++ (content ++ after) := by
    simp only [List.mem_append, not_or]
    exact ⟨fun h => (hbefore _ h).2 rfl, plain, fun h => (hafter _ h).2 rfl⟩
  obtain ⟨first, hlines, htrim⟩ := Text.trim_first_line hplain hend rest
  refine ⟨first, ?_, ?_⟩
  · rw [← hlines]
    simp only [List.append_assoc]
  · rw [htrim]
    exact Text.trim_append (fun c hc => (hbefore c hc).1) trimmed fun c hc => (hafter c hc).1

theorem isTrimmed_of_int32? {text : List Char} {value : Int} (h : Number.int32? text = some value) :
    IsTrimmed text where
  head c hc := (Number.isIntegerChar_of_int32? h c (List.mem_of_mem_head? hc)).isBlank_eq_false
  last c hc := (Number.isIntegerChar_of_int32? h c (List.mem_of_mem_getLast? hc)).isBlank_eq_false

/-- A text is read as the groups it was written for. -/
theorem groupsOfLines_of_isWritten {gs : List Group} {text : List Char} (h : IsWritten gs text) :
    groupsOfLines (lines text) = gs := by
  induction h with
  | nil => rfl
  | @cons group rest code codeLine valueLine text hcode hcodeLine htrimmed hplain hvalueLine _ ih =>
    have hdigits : '\n' ∉ code :=
      fun hmem => (Number.isIntegerChar_of_int32? hcode _ hmem).ne_lineFeed rfl
    obtain ⟨first, hfirst, htrimFirst⟩ :=
      hcodeLine.exists_line (isTrimmed_of_int32? hcode) hdigits (valueLine ++ text)
    obtain ⟨second, hsecond, htrimSecond⟩ := hvalueLine.exists_line htrimmed hplain text
    rw [hfirst, hsecond, groupsOfLines, htrimFirst, htrimSecond, hcode, ih, String.ofList_toList]
    rfl

theorem groups_of_isWritten {gs : List Group} {text : String} (h : IsWritten gs text.toList) :
    groups text = gs :=
  groupsOfLines_of_isWritten h

/-- The usual way of writing groups: the same blanks in front of every code, and the same line
ends. -/
def plainText (padding lineEnd : List Char) (coded : List (List Char × Group)) : List Char :=
  coded.flatMap fun p => (padding ++ (p.1 ++ lineEnd)) ++ (p.2.value.toList ++ lineEnd)

/-- A numeral of the code, and a value that fits on a line and is trimmed. -/
def IsWritable (p : List Char × Group) : Prop :=
  Number.int32? p.1 = some p.2.code ∧ IsTrimmed p.2.value.toList ∧ '\n' ∉ p.2.value.toList

instance (p : List Char × Group) : Decidable (IsWritable p) :=
  inferInstanceAs (Decidable (_ ∧ _ ∧ _))

theorem isWritten_plainText {padding lineEnd : List Char} (hpadding : IsPadding padding)
    (hend : IsLineEnd lineEnd) {coded : List (List Char × Group)} (h : ∀ p ∈ coded, IsWritable p) :
    IsWritten (coded.map Prod.snd) (plainText padding lineEnd coded) := by
  induction coded with
  | nil => exact .nil
  | cons p coded ih =>
    obtain ⟨⟨hcode, htrimmed, hplain⟩, hcoded⟩ := List.forall_mem_cons.1 h
    have hnone : IsPadding [] := List.forall_mem_nil _
    have hcodeLine : IsLineOf p.1 (padding ++ (p.1 ++ lineEnd)) := .intro hpadding hnone hend
    have hvalueLine : IsLineOf p.2.value.toList (p.2.value.toList ++ lineEnd) :=
      .intro hnone hnone hend
    rw [plainText, List.flatMap_cons, ← plainText, List.append_assoc]
    exact .cons hcode hcodeLine htrimmed hplain hvalueLine (ih hcoded)

end Turnery.Dxf.Scan
