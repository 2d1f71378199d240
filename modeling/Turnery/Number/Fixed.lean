import Turnery.Number.Binary64
import Turnery.Number.Digits
import Turnery.Number.Rounding

/-!
# Decimals with a bounded number of places

A double is rounded, as its exact binary value, to the nearest multiple of `10 ^ -places`; the
multiple is then written as its canonical decimal: no superfluous zeros at either end, no exponent,
and no sign on zero.
-/

namespace Turnery.Number

/-- The multiple of `10 ^ -places` nearest to `mantissa · 2 ^ exponent`, counted in such units. -/
def nearestUnits (tie : Tie) (places mantissa : Nat) (exponent : Int) : Nat :=
  roundDiv tie (Binary64.numerator mantissa exponent * Nat.pow 10 places)
    (Binary64.denominator exponent)

/-- The fraction part: a point and the digits up to the last that is not zero, or nothing. -/
def fractionText (places units : Nat) : List Char :=
  match dropTrailingZeros (lastDigits places units) with
  | [] => []
  | ds => '.' :: ds

def canonicalDecimal (negative : Bool) (places units : Nat) : List Char :=
  (if negative && units != 0 then ['-'] else []) ++
    digits (units / Nat.pow 10 places) ++ fractionText places units

def signed (negative : Bool) (word : String) : String :=
  if negative then "-" ++ word else word

/-- The double with at most `places` decimals, a tie going to the even multiple. -/
def trimmedDecimal (places : Nat) (x : Float) : String :=
  match Binary64.ofFloat x with
  | .nan => "NaN"
  | .infinite negative => signed negative "inf"
  | .finite negative mantissa exponent =>
    String.ofList (canonicalDecimal negative places (nearestUnits .toEven places mantissa exponent))

/-- The double rounded to an integer, a tie going away from zero; the sign of a negative value is
kept. -/
def wholeDecimal (x : Float) : String :=
  match Binary64.ofFloat x with
  | .nan => "NaN"
  | .infinite negative => signed negative "inf"
  | .finite negative mantissa exponent =>
    signed negative (String.ofList (digits (nearestUnits .away 0 mantissa exponent)))

/-- Zero has no sign, whatever the sign asked for. -/
theorem canonicalDecimal_zero (negative : Bool) (places : Nat) :
    canonicalDecimal negative places 0 = canonicalDecimal false places 0 := by
  simp [canonicalDecimal]

end Turnery.Number
