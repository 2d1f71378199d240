import Turnery.Number.Literal

/-!
# Numbers in JSON

The lexeme of a number is split off a text by the grammar of the format. Its value is an integer
where it is written as one and fits 64 bits. Otherwise its digits are taken into a 64-bit
significand as far as they fit, and the double of the significand is multiplied or divided by one
power of ten; a value beyond the largest double is no value.
-/

namespace Turnery.Json

inductive NumberValue where
  | integer (n : Int)
  | real (x : Float)

def NumberValue.toFloat : NumberValue → Float
  | integer n => Number.Numeral.toFloat ⟨n < 0, n.natAbs, 0⟩
  | real x => x

namespace Lexeme

open Number (splitDigits digitValue natOfDigits)

structure Parts where
  negative : Bool
  whole : List Char
  /-- The digits behind a point. -/
  fraction : List Char
  /-- The sign and the digits of an exponent. -/
  exponent : Option (Bool × List Char)
  /-- There is neither a point nor an exponent. -/
  isInteger : Bool

/-- The minus sign at the front of a text, if there is one, and the rest. -/
def takeMinus : List Char → List Char × List Char
  | '-' :: rest => (['-'], rest)
  | text => ([], text)

/-- The whole part: one zero, or digits of which the first is not zero. -/
def takeWhole? (text : List Char) : Option (List Char × List Char) :=
  let (ds, rest) := splitDigits text
  match ds with
  | [] => none
  | '0' :: _ :: _ => none
  | ds => some (ds, rest)

/-- The fraction: nothing, or a point and at least one digit. -/
def takeFraction? : List Char → Option (List Char × List Char)
  | '.' :: text =>
    let (ds, rest) := splitDigits text
    if ds.isEmpty then none else some ('.' :: ds, rest)
  | text => some ([], text)

def takeSign : List Char → List Char × List Char
  | '-' :: rest => (['-'], rest)
  | '+' :: rest => (['+'], rest)
  | text => ([], text)

/-- The exponent: nothing, or the letter, an optional sign and at least one digit. -/
def takeExponent? : List Char → Option (List Char × List Char)
  | [] => some ([], [])
  | e :: text =>
    if e == 'e' || e == 'E' then
      let (sign, afterSign) := takeSign text
      let (ds, rest) := splitDigits afterSign
      if ds.isEmpty then none else some (e :: sign ++ ds, rest)
    else some ([], e :: text)

/-- The lexeme of a number at the front of a text, and the rest. -/
def take? (text : List Char) : Option (List Char × List Char) := do
  let (sign, text) := takeMinus text
  let (whole, text) ← takeWhole? text
  let (fraction, text) ← takeFraction? text
  let (exponent, text) ← takeExponent? text
  some (sign ++ whole ++ fraction ++ exponent, text)

/-- The parts of a lexeme that was split off. -/
def parts (lexeme : List Char) : Parts :=
  let (sign, text) := takeMinus lexeme
  let (whole, text) := splitDigits text
  let (fraction, exponent) := match text with
    | '.' :: text => splitDigits text
    | text => ([], text)
  { negative := !sign.isEmpty
    whole := whole
    fraction := fraction
    exponent := match exponent with
      | [] => none
      | _ :: text =>
        let (sign, ds) := takeSign text
        some (sign == ['-'], ds)
    isInteger := text.isEmpty }

/-- Digits appended to a significand as long as it fits 64 bits, and the digits left. -/
def fill (n : Nat) : List Char → Nat × List Char
  | [] => (n, [])
  | d :: ds =>
    if 10 * n + digitValue d < Nat.pow 2 64 then fill (10 * n + digitValue d) ds else (n, d :: ds)

/-- The largest power of ten that a double can be multiplied with. -/
def maxPower : Nat := 308

def power (k : Nat) : Float := Number.nearestFloat 1 k

/-- A double divided by a power of ten, in steps if the power is too large. -/
def divide (x : Float) (k : Nat) : Float :=
  if k ≤ maxPower then x / power k
  else if x == 0 then x
  else divide (x / power maxPower) (k - maxPower)
termination_by k
decreasing_by
  rename_i h _
  simp only [maxPower] at h ⊢
  omega

/-- A double multiplied by a power of ten, if the product is finite. -/
def multiply? (x : Float) (k : Nat) : Option Float :=
  if k ≤ maxPower then
    let y := x * power k
    if y.isInf then none else some y
  else if x == 0 then some x
  else none

def scale? (significand : Nat) (exponent : Int) : Option Float :=
  let x := Float.ofNat significand
  if 0 ≤ exponent then multiply? x exponent.toNat else some (divide x (-exponent).toNat)

/-- The largest exponent that is taken at its word. -/
def maxExponent : Nat := Nat.pow 2 31 - 1

/-- The value of a number with a point or an exponent, or of an integer that is too long. -/
def real? (p : Parts) : Option Float := do
  let (n, longRest) := fill 0 p.whole
  let (significand, fractionRest) := fill n p.fraction
  let shift : Int := longRest.length - (p.fraction.length - fractionRest.length : Nat)
  let magnitude ← match p.exponent with
    | none => scale? significand shift
    | some (isNegative, ds) =>
      let e := natOfDigits ds
      if e ≤ maxExponent then scale? significand (if isNegative then shift - e else shift + e)
      else if significand != 0 && !isNegative then none
      else some 0
  some (if p.negative then -magnitude else magnitude)

/-- The value of a lexeme, if it is in range. A negative zero is a double. -/
def value? (lexeme : List Char) : Option NumberValue :=
  let p := parts lexeme
  let n := natOfDigits p.whole
  if p.isInteger && !p.negative && n < Nat.pow 2 64 then some (.integer n)
  else if p.isInteger && p.negative && n != 0 && n ≤ Nat.pow 2 63 then some (.integer (-n))
  else (real? p).map .real

end Lexeme

end Turnery.Json
