import Turnery.Number.Digits

/-!
# Digits of other bases

Numbers in bases up to sixteen, with letters of either case beyond nine. What `hexDigits` writes is
read as the number it was written for, whatever the case of the letters.
-/

namespace Turnery.Number

/-- The value of a digit of up to hexadecimal range. -/
def hexValue? (c : Char) : Option Nat :=
  if c.isDigit then some (c.toNat - '0'.toNat)
  else if 'a' ≤ c && c ≤ 'f' then some (c.toNat - 'a'.toNat + 10)
  else if 'A' ≤ c && c ≤ 'F' then some (c.toNat - 'A'.toNat + 10)
  else none

def digitIn? (base : Nat) (c : Char) : Option Nat :=
  (hexValue? c).filter (· < base)

/-- The number that digits of a base write. -/
def natIn? (base : Nat) (ds : List Char) : Option Nat :=
  ds.foldlM (fun n d => (digitIn? base d).map (base * n + ·)) 0

/-- A number of at most a limit in hexadecimal digits, of which there is at least one; a plus sign
may stand in front. -/
def hexNat? (limit : Nat) (text : List Char) : Option Nat :=
  let ds := match text with
    | '+' :: ds => ds
    | ds => ds
  if ds.isEmpty then none else (natIn? 16 ds).filter (· ≤ limit)

/-- The last `places` hexadecimal digits of a number, letters small. -/
def hexDigits : Nat → Nat → List Char
  | 0, _ => []
  | places + 1, n => Nat.digitChar (n / Nat.pow 16 places % 16) :: hexDigits places n

/-- A way of writing hexadecimal digits that keeps their values. -/
def KeepsHex (f : Char → Char) : Prop :=
  ∀ v < 16, digitIn? 16 (f v.digitChar) = some v

theorem keepsHex_id : KeepsHex id := by
  unfold KeepsHex
  decide

theorem keepsHex_toUpper : KeepsHex Char.toUpper := by
  unfold KeepsHex
  decide

theorem foldlM_hexDigits {f : Char → Char} (h : KeepsHex f) (places n k : Nat) :
    ((hexDigits places n).map f).foldlM (fun n d => (digitIn? 16 d).map (16 * n + ·)) k =
      some (k * Nat.pow 16 places + n % Nat.pow 16 places) := by
  induction places generalizing k with
  | zero => simp [hexDigits, Nat.pow, Nat.mod_one]
  | succ places ih =>
    have hdigit : n / Nat.pow 16 places % 16 < 16 := Nat.mod_lt _ (by decide)
    have hsplit : n % Nat.pow 16 (places + 1) =
        n % Nat.pow 16 places + Nat.pow 16 places * (n / Nat.pow 16 places % 16) := Nat.mod_mul
    have hshift : (16 * k + n / Nat.pow 16 places % 16) * Nat.pow 16 places =
        k * Nat.pow 16 (places + 1) + Nat.pow 16 places * (n / Nat.pow 16 places % 16) := by
      show _ = k * (Nat.pow 16 places * 16) + _
      rw [Nat.add_mul, Nat.mul_comm 16 k, Nat.mul_assoc, Nat.mul_comm 16,
        Nat.mul_comm (n / Nat.pow 16 places % 16)]
    rw [hexDigits, List.map_cons, List.foldlM_cons, h _ hdigit]
    simp only [Option.map_some, Option.bind_eq_bind, Option.bind_some, ih]
    rw [hsplit, hshift, Nat.add_assoc, Nat.add_comm (n % _)]

theorem natIn?_hexDigits {f : Char → Char} (h : KeepsHex f) {places n : Nat}
    (hn : n < Nat.pow 16 places) :
    natIn? 16 ((hexDigits places n).map f) = some n := by
  rw [natIn?, foldlM_hexDigits h, Nat.zero_mul, Nat.zero_add, Nat.mod_eq_of_lt hn]

end Turnery.Number
