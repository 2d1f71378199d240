import Turnery.Svg.PathData
import Turnery.Text.CharacterClass
import Turnery.Text.WordCharacter

/-!
# Documents

The drawing in a document is the path data of its `path` elements, in order. An element is read up
to its first `d` attribute and no closing bracket is crossed on the way.
-/

namespace Turnery.Svg.Document

/-- The text up to a quotation mark, and the rest behind the mark. -/
def takeQuoted? (quote : Char) (text : List Char) : Option (List Char × List Char) :=
  match text.dropWhile (· != quote) with
  | [] => none
  | _ :: rest => some (text.takeWhile (· != quote), rest)

/-- The value of a `d` attribute that starts with the blank at the front of a text, and the rest. -/
def takeAttribute? : List Char → Option (List Char × List Char)
  | blank :: 'd' :: afterName =>
    if Text.isBlank blank then
      match Text.trimStart afterName with
      | '=' :: afterSign =>
        match Text.trimStart afterSign with
        | '"' :: value => takeQuoted? '"' value
        | '\'' :: value => takeQuoted? '\'' value
        | _ => none
      | _ => none
    else none
  | _ => none

/-- The value of the first `d` attribute before the next closing bracket, and the rest. -/
def findAttribute? : List Char → Option (List Char × List Char)
  | [] => none
  | c :: rest =>
    match takeAttribute? (c :: rest) with
    | some found => some found
    | none => if c == '>' then none else findAttribute? rest

def endsName : List Char → Bool
  | [] => true
  | c :: _ => !Text.isWordCharacter c

/-- The path data of an element that starts at the front of a text, and the rest. -/
def takeElement? : List Char → Option (List Char × List Char)
  | '<' :: 'p' :: 'a' :: 't' :: 'h' :: rest => if endsName rest then findAttribute? rest else none
  | _ => none

theorem takeQuoted?_length {quote : Char} {text value rest : List Char}
    (h : takeQuoted? quote text = some (value, rest)) : rest.length < text.length := by
  unfold takeQuoted? at h
  split at h
  · cases h
  · rename_i c tail hdrop
    have hle := (List.dropWhile_suffix (l := text) (· != quote)).length_le
    rw [hdrop] at hle
    simp only [Option.some.injEq, Prod.mk.injEq] at h
    rw [← h.2]
    exact Nat.lt_of_succ_le hle

theorem trimStart_length (text : List Char) : (Text.trimStart text).length ≤ text.length :=
  (List.dropWhile_suffix _).length_le

theorem takeAttribute?_length {text value rest : List Char}
    (h : takeAttribute? text = some (value, rest)) : rest.length < text.length := by
  unfold takeAttribute? at h
  split at h
  · rename_i blank afterName
    split at h
    · split at h
      · rename_i afterSign hname
        have hle := trimStart_length afterName
        rw [hname] at hle
        have hsign := trimStart_length afterSign
        split at h
        · rename_i tail hquote
          rw [hquote] at hsign
          have := takeQuoted?_length h
          simp only [List.length_cons] at hle hsign ⊢
          omega
        · rename_i tail hquote
          rw [hquote] at hsign
          have := takeQuoted?_length h
          simp only [List.length_cons] at hle hsign ⊢
          omega
        · cases h
      · cases h
    · cases h
  · cases h

theorem findAttribute?_length {text value rest : List Char}
    (h : findAttribute? text = some (value, rest)) : rest.length < text.length := by
  induction text with
  | nil => cases h
  | cons c tail ih =>
    unfold findAttribute? at h
    split at h
    · rename_i found hfound
      cases h
      exact takeAttribute?_length hfound
    · split at h
      · cases h
      · have := ih h
        simp only [List.length_cons]
        omega

theorem takeElement?_length {text value rest : List Char}
    (h : takeElement? text = some (value, rest)) : rest.length < text.length := by
  unfold takeElement? at h
  split at h
  · split at h
    · have := findAttribute?_length h
      simp only [List.length_cons]
      omega
    · cases h
  · cases h

/-- The path data of all elements, in order. -/
def pathData : List Char → List (List Char)
  | [] => []
  | c :: rest =>
    match h : takeElement? (c :: rest) with
    | some (data, rest') =>
      have : rest'.length < (c :: rest).length := takeElement?_length h
      data :: pathData rest'
    | none => pathData rest
termination_by text => text.length
decreasing_by all_goals first | assumption | exact Nat.lt_succ_self _

def linework (text : String) : Linework Float :=
  (pathData text.toList).foldl (fun work data => work.extend (PathData.linework data)) .empty

end Turnery.Svg.Document
