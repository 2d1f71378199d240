import Turnery.Dxf.Annex

/-!
# The preview of a drawing

A file may hold a small picture of what it draws: a length, which does not matter, and the bytes of
a bitmap from its header on. A picture that cannot be shown makes the file unreadable.
-/

namespace Turnery.Dxf.Preview

/-- The number in some bytes, the lowest first. -/
def number (bytes : List UInt8) : Nat :=
  bytes.foldr (fun b n => b.toNat + 256 * n) 0

def field (bytes : List UInt8) (start count : Nat) : Nat :=
  number ((bytes.drop start).take count)

def headerSize : Nat := 40

/-- The numbers of bits that a pixel can have. -/
def depths : List Nat := [1, 4, 8, 16, 24, 32]

/-- The height of a bitmap; it counts as negative if the rows go downwards. -/
def height (bytes : List UInt8) : Nat :=
  let n := field bytes 8 4
  if n < Nat.pow 2 31 then n else Nat.pow 2 32 - n

/-- How many colors stand behind the header. -/
def colors (bytes : List UInt8) : Nat :=
  let depth := field bytes 14 2
  if depth ≤ 8 && field bytes 32 4 == 0 then Nat.pow 2 depth else field bytes 32 4

/-- How many bytes the rows have. A row is filled up to a multiple of four. -/
def rowsSize (bytes : List UInt8) : Nat :=
  (field bytes 4 4 * field bytes 14 2 + 31) / 32 * 4 * height bytes

/-- The bytes are a plain bitmap of which nothing is missing. -/
def isPicture (bytes : List UInt8) : Bool :=
  let side (n : Nat) := 0 < n && n < Nat.pow 2 16
  field bytes 0 4 == headerSize && side (field bytes 4 4) && side (height bytes) &&
    field bytes 12 2 == 1 &&
    depths.contains (field bytes 14 2) && field bytes 16 4 == 0 && headerSize + 4 * colors bytes ≤
      bytes.length &&
    headerSize + field bytes 14 2 * field bytes 32 4 + rowsSize bytes ≤ bytes.length

/-- The bytes that hexadecimal digits stand for, two for each. -/
def bytesOfDigits : List Char → List UInt8
  | a :: b :: rest =>
    UInt8.ofNat ((Number.hexValue? a).getD 0 * 16 + (Number.hexValue? b).getD 0) ::
      bytesOfDigits rest
  | _ => []

/-- The bytes of the picture, up to the end of the section. -/
def readBytes (encoding : Encoding) (lines : List Line) : Outcome (List UInt8) lines.length :=
  match next encoding lines with
  | .fault rest h => .failed rest (Nat.le_of_lt h)
  | .gap rest h => .done [] rest h
  | .pair p rest h =>
    if p.isHead then .done [] lines (Nat.le_refl _)
    else if p.code == 310 then
      ((readBytes encoding rest).map (bytesOfDigits (p.text?.getD "").toList ++ ·)).weaken
        (Nat.le_of_lt h)
    else .failed rest (Nat.le_of_lt h)
termination_by lines.length

def skip (encoding : Encoding) (lines : List Line) : Outcome Unit lines.length :=
  match next encoding lines with
  | .fault rest h => .failed rest (Nat.le_of_lt h)
  | .gap rest h => .done () rest h
  | .pair p rest h =>
    if p.isHead then .done () lines (Nat.le_refl _)
    else if p.code == 90 then
      match readBytes encoding rest with
      | .failed rest h' => .failed rest (short_of_shorter h' h)
      | .done bytes rest h' =>
        if isPicture bytes then .done () rest (short_of_shorter h' h)
        else .failed rest (short_of_shorter h' h)
    else .failed rest (Nat.le_of_lt h)

end Turnery.Dxf.Preview
