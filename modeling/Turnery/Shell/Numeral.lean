import Turnery.Number.Binary64
import Turnery.Number.Literal
import Turnery.Shell.Octets

/-!
# Decimal numerals

Commands and conditions take their numbers in decimal digits, with a sign and blanks around if one
likes.
-/

namespace Turnery.Shell.Numeral

def isSpace (c : Char) : Bool :=
  c == ' ' || ('\t' ≤ c && c ≤ '\r')

/-- The text without the blanks around it. -/
def trim (text : Octets) : Octets :=
  ((text.dropWhile isSpace).reverse.dropWhile isSpace).reverse

/-- The integer that a text writes, if it has at most 64 bits. -/
def integer? (text : Octets) : Option Int :=
  (Number.readInt (Nat.pow 2 63 - 1) (trim text)).toOption

/-- The natural number that a text writes, if it has at most 31 bits. -/
def natural? (text : Octets) : Option Nat :=
  match integer? text with
  | some n => if 0 ≤ n && n < Nat.pow 2 31 then some n.toNat else none
  | none => none

end Turnery.Shell.Numeral
