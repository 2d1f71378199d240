import Turnery.Dxf.Pair

/-!
# Annexes of a record

A record may hold groups of pairs in braces and data of applications. Neither matters to a drawing,
but both must be well formed, and the pairs in them do not count as the record's own.
-/

namespace Turnery.Dxf

/-- What a reader of the lines of a file comes to; either way it says which lines it leaves. -/
inductive Outcome (α : Type) (count : Nat) where
  | done (result : α) (rest : List Line) (short : rest.length ≤ count)
  | failed (rest : List Line) (short : rest.length ≤ count)

namespace Outcome

variable {α β : Type}

/-- The same seen from further in front. -/
def weaken {m n : Nat} (h : m ≤ n) : Outcome α m → Outcome α n
  | done result rest short => done result rest (short_trans short h)
  | failed rest short => failed rest (short_trans short h)

def map (f : α → β) {n : Nat} : Outcome α n → Outcome β n
  | done result rest short => done (f result) rest short
  | failed rest short => failed rest short

end Outcome

/-- Lines that are left of a list of a given length. -/
abbrev Rest (count : Nat) := { rest : List Line // rest.length ≤ count }

/-- Lines left of a rest are left of the whole. -/
def Rest.weaken {m n : Nat} (h : m ≤ n) (rest : Rest m) : Rest n :=
  ⟨rest.1, Nat.le_trans rest.2 h⟩

def Pair.opensGroup (p : Pair) : Bool :=
  (p.text?.getD "").toList.head? == some '\x7b'

def Pair.closesGroup (p : Pair) : Bool :=
  p.text? == some "\x7d"

/-- Skips the rest of a group inside of which a number of others are open. Groups are told by the
code 102. -/
def skipGroup (encoding : Encoding) (depth : Nat) (lines : List Line) : Outcome Unit lines.length :=
  match next encoding lines with
  | .fault rest h => .failed rest (Nat.le_of_lt h)
  | .gap rest h => .failed rest h
  | .pair p rest h =>
    let short := Nat.le_of_lt h
    if p.code != 102 then (skipGroup encoding depth rest).weaken short
    else if p.closesGroup then
      if depth == 0 then .done () rest short else (skipGroup encoding (depth - 1) rest).weaken short
    else if p.opensGroup then (skipGroup encoding (depth + 1) rest).weaken short
    else .failed rest short
termination_by lines.length

/-- Skips a pair that must have the given code. -/
def skipPair (encoding : Encoding) (code : Int) (lines : List Line) : Outcome Unit lines.length :=
  match next encoding lines with
  | .fault rest h => .failed rest (Nat.le_of_lt h)
  | .gap rest h => .failed rest h
  | .pair p rest h =>
    if p.code == code then .done () rest (Nat.le_of_lt h) else .failed rest (Nat.le_of_lt h)

/-- The codes of data that is a single pair of any value of its type. -/
def plainDataCodes : List Int := [1000, 1003, 1040, 1041, 1042, 1070, 1071]

/-- The codes of the first coordinates of points; the other two follow in pairs of their own. -/
def pointDataCodes : List Int := [1010, 1011, 1012, 1013]

/-- Skips what belongs to an item of data besides its first pair. -/
def skipItem (encoding : Encoding) (p : Pair) (lines : List Line) : Outcome Unit lines.length :=
  if plainDataCodes.contains p.code then .done () lines (Nat.le_refl _)
  else if p.code == 1004 && isHexText (p.text?.getD "").toList then .done () lines (Nat.le_refl _)
  else if p.code == 1005 && p.isHandle then .done () lines (Nat.le_refl _)
  else if pointDataCodes.contains p.code then
    match skipPair encoding (p.code + 10) lines with
    | .failed rest h => .failed rest h
    | .done () rest h => (skipPair encoding (p.code + 20) rest).weaken h
  else .failed lines (Nat.le_refl _)

/-- Skips the data of an application, inside of which a number of lists are open. It ends in front
of a pair that is no data, or of the data of another application, and at a gap. -/
def skipData (encoding : Encoding) (depth : Nat) (lines : List Line) : Outcome Unit lines.length :=
  match next encoding lines with
  | .fault rest h => .failed rest (Nat.le_of_lt h)
  | .gap rest h => if depth == 0 then .done () rest h else .failed rest h
  | .pair p rest h =>
    let short := Nat.le_of_lt h
    if depth == 0 && (p.code < 1000 || p.code == 1001) then .done () lines (Nat.le_refl _)
    else if p.code == 1002 then
      (skipData encoding (if depth != 0 && p.closesGroup then depth - 1 else depth + 1) rest).weaken
        short
    else
      match skipItem encoding p rest with
      | .failed rest h' => .failed rest (Nat.le_trans h' short)
      | .done () rest h' => (skipData encoding depth rest).weaken (Nat.le_trans h' short)
termination_by lines.length
decreasing_by
  all_goals omega

/-- The codes that every record has for its own handle and that of its owner. -/
def commonHandleCodes : List Int := [5, 330]

/-- Skips what a pair of a record brings along, and checks the handle if its code is that of one. -/
def skipAnnex (encoding : Encoding) (handleCodes : List Int) (p : Pair) (lines : List Line) :
    Outcome Unit lines.length :=
  if p.code == 102 then
    if p.opensGroup then skipGroup encoding 0 lines else .failed lines (Nat.le_refl _)
  else if p.code == 1001 then skipData encoding 0 lines
  else if handleCodes.contains p.code && !p.isHandle then .failed lines (Nat.le_refl _)
  else .done () lines (Nat.le_refl _)

end Turnery.Dxf
