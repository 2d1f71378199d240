/-!
# Decimal digits of natural numbers

The digits of a natural number, the digits of a decimal fraction with a fixed number of places, and
the reading of digits. Digits are read on from a number that others have made (`appendDigits`), so
that a text may be read in parts.
-/

namespace Turnery.Number

/-- The decimal digits of a natural number, without leading zeros. -/
def digits (n : Nat) : List Char :=
  Nat.toDigits 10 n

def natText (n : Nat) : String :=
  String.ofList (digits n)

/-- The last `places` decimal digits of a number, leading zeros kept. -/
def lastDigits : Nat → Nat → List Char
  | 0, _ => []
  | places + 1, n => Nat.digitChar (n / Nat.pow 10 places % 10) :: lastDigits places n

@[simp] theorem length_lastDigits (places n : Nat) : (lastDigits places n).length = places := by
  induction places with
  | zero => rfl
  | succ places ih => simp [lastDigits, ih]

/-- The digits without the zeros at their end. -/
def dropTrailingZeros (ds : List Char) : List Char :=
  (ds.reverse.dropWhile (· == '0')).reverse

def digitValue (c : Char) : Nat :=
  c.toNat - '0'.toNat

/-- A number followed by further digits. -/
def appendDigits (n : Nat) (ds : List Char) : Nat :=
  ds.foldl (fun n d => 10 * n + digitValue d) n

def natOfDigits (ds : List Char) : Nat :=
  appendDigits 0 ds

@[simp] theorem appendDigits_nil (n : Nat) : appendDigits n [] = n := rfl

@[simp] theorem appendDigits_cons (n : Nat) (d : Char) (ds : List Char) :
    appendDigits n (d :: ds) = appendDigits (10 * n + digitValue d) ds := by
  simp only [appendDigits, List.foldl_cons]

theorem appendDigits_append (n : Nat) (ds es : List Char) :
    appendDigits n (ds ++ es) = appendDigits (appendDigits n ds) es := by
  simp [appendDigits]

end Turnery.Number
