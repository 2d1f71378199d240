import Mathlib.Algebra.Group.Nat.Defs
import Mathlib.Data.List.Forall2
import Turnery.Datum.Json

/-!
# JSON strings read back

What `Datum.jsonString` writes for a text is read as this text, whatever its characters:
`string?_jsonString`. Each character is written as one piece, and the reader assembles the pieces.
-/

namespace Turnery.Json.Reader

open Datum (jsonChar jsonString)
open Number (natIn? hexDigits natIn?_hexDigits keepsHex_id)

/-- The piece stands for the character. Only control characters are written as units. -/
inductive Spells (c : Char) : Piece → Prop where
  | char : Spells c (.char c)
  | unit (control : c.toNat < 0x20) : Spells c (.unit c.toNat)

theorem pieces?_unit {n : ℕ} (hn : n < 16 ^ 4) (rest : List Char) :
    pieces? (['\\', 'u'] ++ hexDigits 4 n ++ rest) = (pieces? rest).map fun (ps, rest) =>
      (.unit n :: ps, rest) := by
  have hread := natIn?_hexDigits keepsHex_id hn
  rw [List.map_id] at hread
  simp only [hexDigits] at hread ⊢
  simp only [List.cons_append, List.nil_append, pieces?, hread, Option.bind_eq_bind,
    Option.bind_some]
  cases pieces? rest <;> rfl

/-- An escape by a letter is a piece. -/
theorem pieces?_escaped {letter c : Char} (hletter : letter ≠ 'u') (h : escaped? letter = some c)
    (rest : List Char) :
    pieces? ('\\' :: letter :: rest) = (pieces? rest).map fun (ps, rest) =>
      (.char c :: ps, rest) := by
  rw [pieces?.eq_def]
  split
  · rename_i heq
    cases heq
  · rename_i heq
    cases heq
  · rename_i heq
    exact absurd (List.cons.inj (List.cons.inj heq).2).1 hletter
  · rename_i heq
    obtain ⟨rfl, rfl⟩ := List.cons.inj (List.cons.inj heq).2
    rw [h]
    simp only [Option.bind_eq_bind, Option.bind_some]
    cases pieces? _ <;> rfl
  · rename_i hnone heq
    obtain ⟨rfl, rfl⟩ := List.cons.inj heq
    exact absurd rfl (hnone letter rest rfl)

/-- A character that is neither a mark nor a control character is a piece as it is. -/
theorem pieces?_plain {c : Char} (hmark : c ≠ '"') (hescape : c ≠ '\\') (hcontrol : ¬c.toNat < 0x20)
    (rest : List Char) :
    pieces? (c :: rest) = (pieces? rest).map fun (ps, rest) => (.char c :: ps, rest) := by
  rw [pieces?.eq_def]
  split
  · rename_i heq
    cases heq
  · rename_i heq
    exact absurd (List.cons.inj heq).1 hmark
  · rename_i heq
    exact absurd (List.cons.inj heq).1 hescape
  · rename_i heq
    exact absurd (List.cons.inj heq).1 hescape
  · rename_i heq
    obtain ⟨rfl, rfl⟩ := List.cons.inj heq
    have hcond : (c == '\\' || decide (c.toNat < 0x20)) = false := by simp [hescape, hcontrol]
    rw [if_neg (by rw [hcond]; exact Bool.false_ne_true)]
    cases pieces? _ <;> rfl

/-- A character is written as one piece that stands for it. -/
theorem exists_pieces?_jsonChar (c : Char) (rest : List Char) :
    ∃ p, Spells c p ∧ pieces? (jsonChar c ++ rest) = (pieces? rest).map fun (ps, rest) =>
      (p :: ps, rest) := by
  unfold jsonChar
  split
  iterate 7 exact ⟨_, .char, pieces?_escaped (by decide) rfl rest⟩
  · rename_i hmark hescape _ _ _ _ _
    split
    · rename_i hcontrol
      exact ⟨_, .unit hcontrol, pieces?_unit (by omega) rest⟩
    · rename_i hcontrol
      exact ⟨_, .char, pieces?_plain hmark hescape hcontrol rest⟩

theorem exists_pieces?_flatMap (cs rest : List Char) :
    ∃ ps, List.Forall₂ Spells cs ps ∧ pieces? (cs.flatMap jsonChar ++ '"' :: rest) =
      some (ps, rest) := by
  induction cs with
  | nil => exact ⟨[], .nil, by simp [pieces?]⟩
  | cons c cs ih =>
    obtain ⟨ps, hps, hread⟩ := ih
    obtain ⟨p, hp, hfirst⟩ := exists_pieces?_jsonChar c (cs.flatMap jsonChar ++ '"' :: rest)
    refine ⟨p :: ps, .cons hp hps, ?_⟩
    rw [List.flatMap_cons, List.append_assoc, hfirst, hread]
    rfl

/-- A unit that is no half of a pair is a character of its own. -/
theorem assemble?_unit {n : ℕ} (hn : n < 0xD800) (ps : List Piece) :
    assemble? (.unit n :: ps) = (assemble? ps).map (Char.ofNat n :: ·) := by
  have hhigh : isHigh n = false := by
    simp only [isHigh, Bool.and_eq_false_iff, decide_eq_false_iff_not]
    omega
  have hlow : isLow n = false := by
    simp only [isLow, Bool.and_eq_false_iff, decide_eq_false_iff_not]
    omega
  rw [assemble?.eq_def]
  split
  · rename_i heq
    cases heq
  · rename_i heq
    cases heq
  · rename_i heq
    cases heq
    simp [hhigh, hlow]
  · rename_i heq
    cases heq
    simp [hhigh, hlow]

theorem assemble?_of_spells {cs : List Char} {ps : List Piece} (h : List.Forall₂ Spells cs ps) :
    assemble? ps = some cs := by
  induction h with
  | nil => rfl
  | cons hp _ ih =>
    cases hp with
    | char =>
      rw [assemble?, ih]
      rfl
    | unit control =>
      rw [assemble?_unit (by omega), ih, Option.map_some, Char.ofNat_toNat]

/-- A text is read as it was written. -/
theorem string?_jsonString (s : String) (rest : List Char) :
    string? (s.toList.flatMap jsonChar ++ '"' :: rest) = some (some s, rest) := by
  obtain ⟨ps, hps, hread⟩ := exists_pieces?_flatMap s.toList rest
  rw [string?, hread]
  simp only [Option.map_some, assemble?_of_spells hps, String.ofList_toList]

end Turnery.Json.Reader
