/-!
# Windows-1252 and UTF-16

In the code page Windows-1252 each byte is one character. The bytes from 80 to 9F stand for the
characters of a table, all others for the character of their own number.

In UTF-16 a text is in units of two bytes, of which either the low or the high one stands first. A
character outside of the basic plane is a lead and a trail; alone, neither is a character.
-/

namespace Turnery.Text.Windows1252

/-- The code points of the bytes from 80 to 9F. -/
def upperControls : List Nat :=
  [0x20AC, 0x81, 0x201A, 0x192, 0x201E, 0x2026, 0x2020, 0x2021, 0x2C6, 0x2030, 0x160, 0x2039, 0x152,
    0x8D, 0x17D, 0x8F, 0x90, 0x2018, 0x2019, 0x201C, 0x201D, 0x2022, 0x2013, 0x2014, 0x2DC, 0x2122,
    0x161, 0x203A, 0x153, 0x9D, 0x17E, 0x178]

def decodeByte (b : UInt8) : Char :=
  if 0x80 ≤ b.toNat && b.toNat < 0xA0 then Char.ofNat (upperControls.getD (b.toNat - 0x80) b.toNat)
  else Char.ofNat b.toNat

def decode (bytes : List UInt8) : List Char :=
  bytes.map decodeByte

end Turnery.Text.Windows1252

namespace Turnery.Text.Utf16

/-- Which byte of a unit stands first. -/
inductive ByteOrder where
  | lowFirst
  | highFirst
  deriving DecidableEq, Repr

def ByteOrder.unit : ByteOrder → UInt8 → UInt8 → Nat
  | lowFirst, a, b => a.toNat + 256 * b.toNat
  | highFirst, a, b => 256 * a.toNat + b.toNat

/-- The units of a list of bytes, which must be even in number. -/
def units? (order : ByteOrder) : List UInt8 → Option (List Nat)
  | [] => some []
  | [_] => none
  | a :: b :: rest => (units? order rest).map (order.unit a b :: ·)

/-- The unit is the first of a pair. -/
def isLead (u : Nat) : Bool := 0xD800 ≤ u && u < 0xDC00

/-- The unit is the second of a pair. -/
def isTrail (u : Nat) : Bool := 0xDC00 ≤ u && u < 0xE000

def ofPair (lead trail : Nat) : Char :=
  Char.ofNat (0x10000 + (lead - 0xD800) * 0x400 + (trail - 0xDC00))

/-- The text of well-formed units. -/
def characters? : List Nat → Option (List Char)
  | [] => some []
  | [u] => if isLead u || isTrail u then none else some [Char.ofNat u]
  | u :: v :: rest =>
    if isLead u && isTrail v then (characters? rest).map (ofPair u v :: ·)
    else if isLead u || isTrail u then none
    else (characters? (v :: rest)).map (Char.ofNat u :: ·)

/-- The text of well-formed bytes. -/
def decode? (order : ByteOrder) (bytes : List UInt8) : Option (List Char) :=
  (units? order bytes).bind characters?

end Turnery.Text.Utf16
