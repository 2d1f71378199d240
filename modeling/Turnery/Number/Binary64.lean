/-!
# What a double denotes

A double is not a number, an infinity, or a signed dyadic rational `± mantissa · 2 ^ exponent`. The
printers and the conversions of this library work on this view in exact arithmetic.
-/

namespace Turnery.Number

/-- The value of a double; both zeros have mantissa 0. -/
inductive Binary64 where
  | nan
  | infinite (negative : Bool)
  | finite (negative : Bool) (mantissa : Nat) (exponent : Int)
  deriving DecidableEq, Repr

namespace Binary64

def isNegative : Float.Model.UnpackedFloat.Sign → Bool
  | .positive => false
  | .negative => true

/-- What the double denotes. -/
def ofFloat (x : Float) : Binary64 :=
  match x.toModel.unpack with
  | .notANumber => nan
  | .infinity sign => infinite (isNegative sign)
  | .zero sign => finite (isNegative sign) 0 0
  | .finite sign mantissa exponent _ => finite (isNegative sign) mantissa exponent

/-- The numerator of `mantissa · 2 ^ exponent`. -/
def numerator (mantissa : Nat) (exponent : Int) : Nat :=
  mantissa * Nat.pow 2 exponent.toNat

/-- The denominator of `mantissa · 2 ^ exponent`. -/
def denominator (exponent : Int) : Nat :=
  Nat.pow 2 (-exponent).toNat

theorem denominator_pos (exponent : Int) : 0 < denominator exponent :=
  Nat.two_pow_pos _

end Binary64

/-- An integer held within two bounds. -/
def clamp (low high n : Int) : Int :=
  max low (min high n)

/-- The double cut towards zero and held within two bounds; zero for what is not a number. -/
def truncated (low high : Int) (x : Float) : Int :=
  match Binary64.ofFloat x with
  | .nan => 0
  | .infinite negative => if negative then low else high
  | .finite negative mantissa exponent =>
    let whole : Int := Binary64.numerator mantissa exponent / Binary64.denominator exponent
    clamp low high (if negative then -whole else whole)

end Turnery.Number
