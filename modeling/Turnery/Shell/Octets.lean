import Turnery.Text.Utf8

/-!
# Octets

The shell works on bytes. It writes a byte as the character with the byte's number, so that the
bytes of the standard characters read as these. `toBytes_ofBytes` says that no byte is lost.
-/

namespace Turnery.Shell

/-- A text whose characters stand for bytes. -/
abbrev Octets := List Char

namespace Octets

def ofBytes (bytes : List UInt8) : Octets :=
  bytes.map fun b => Char.ofNat b.toNat

def toBytes (text : Octets) : List UInt8 :=
  text.map fun c => UInt8.ofNat c.toNat

theorem toNat_ofNat_byte (b : UInt8) : (Char.ofNat b.toNat).toNat = b.toNat := by
  have hb : b.toNat < 256 := b.toNat_lt
  have hv : b.toNat.isValidChar := Or.inl (by omega)
  unfold Char.ofNat
  rw [dif_pos hv]
  rfl

theorem toBytes_ofBytes (bytes : List UInt8) : toBytes (ofBytes bytes) = bytes := by
  induction bytes with
  | nil => rfl
  | cons b rest ih =>
    simp only [toBytes, ofBytes, List.map_cons, List.map_map] at ih ⊢
    rw [ih, toNat_ofNat_byte, UInt8.ofNat_toNat]

def ofText (text : String) : Octets :=
  ofBytes (Text.Utf8.encode text.toList)

/-- The text of bytes in UTF-8; malformed pieces are replaced. -/
def toText (text : Octets) : String :=
  String.ofList (Text.Utf8.decodeTolerant (toBytes text))

/-- The order of two texts, by the numbers of their bytes. -/
def order : Octets → Octets → Ordering
  | [], [] => .eq
  | [], _ :: _ => .lt
  | _ :: _, [] => .gt
  | a :: as, b :: bs => if a == b then order as bs else compare a.toNat b.toNat

/-- The text in quotes, from which the shell reads it back. Single quotes themselves stand in double
ones; at most so many changes of quotes are made. -/
def singleQuotedUpTo : Nat → Octets → Octets
  | 0, _ => []
  | more + 1, text =>
    let plain := text.takeWhile (· != '\'')
    let rest := text.drop plain.length
    let marks := rest.takeWhile (· == '\'')
    let rest := rest.drop marks.length
    let front := '\'' :: plain ++ ['\'']
    if marks.isEmpty then front
    else front ++ '"' :: marks ++ '"' :: (if rest.isEmpty then [] else singleQuotedUpTo more rest)

def singleQuoted (text : Octets) : Octets :=
  singleQuotedUpTo (text.length + 1) text

end Octets

end Turnery.Shell
