import Turnery.Number.Digits

/-!
# Numerals

How a text is read as an integer or as a double. A double is written as an optional sign and either
one of the words `inf`, `infinity` and `nan` in any case, or digits with an optional point among or
around them and an optional exponent; the double nearest to the number written is taken.
-/

namespace Turnery.Number

/-- A decimal with its sign: `± digits · 10 ^ exponent`. -/
structure Numeral where
  negative : Bool
  digits : Nat
  exponent : Int
  deriving DecidableEq, Repr

def nearestFloat (digits : Nat) (exponent : Int) : Float :=
  Float.ofModel (Float.Model.ofScientific digits exponent)

/-- The double nearest to the number written; zero keeps its sign. -/
def Numeral.toFloat (n : Numeral) : Float :=
  let magnitude := nearestFloat n.digits n.exponent
  if n.negative then -magnitude else magnitude

def splitSign : List Char → Bool × List Char
  | '-' :: rest => (true, rest)
  | '+' :: rest => (false, rest)
  | text => (false, text)

/-- The digits at the front of a text and the rest. -/
def splitDigits (text : List Char) : List Char × List Char :=
  (text.takeWhile Char.isDigit, text.dropWhile Char.isDigit)

theorem splitDigits_append (text : List Char) :
    (splitDigits text).1 ++ (splitDigits text).2 = text :=
  List.takeWhile_append_dropWhile

/-- The fraction digits after a point at the front of a text, if there is one, and the rest. -/
def splitFraction : List Char → List Char × List Char
  | '.' :: rest => splitDigits rest
  | text => ([], text)

/-- A whole text as an exponent: nothing, or the letter, an optional sign and at least one digit. -/
def exponent? : List Char → Option Int
  | [] => some 0
  | c :: rest =>
    if c == 'e' || c == 'E' then
      let (negative, ds) := splitSign rest
      if ds.isEmpty || !ds.all Char.isDigit then none
      else
        let n : Int := natOfDigits ds
        some (if negative then -n else n)
    else none

/-- A whole text without sign as a decimal. -/
def unsigned? (text : List Char) : Option (Nat × Int) :=
  let (whole, afterWhole) := splitDigits text
  let (fraction, afterFraction) := splitFraction afterWhole
  if whole.isEmpty && fraction.isEmpty then none
  else
    (exponent? afterFraction).map fun e =>
      (natOfDigits (whole ++ fraction), e - (fraction.length : Int))

/-- The words for the values that digits cannot write. -/
def word? (text : List Char) : Option Float :=
  match String.ofList (text.map Char.toLower) with
  | "inf" => some (1 / 0)
  | "infinity" => some (1 / 0)
  | "nan" => some (0 / 0)
  | _ => none

def float? (text : List Char) : Option Float :=
  let (negative, body) := splitSign text
  match unsigned? body with
  | some (ds, e) => some (Numeral.toFloat ⟨negative, ds, e⟩)
  | none => (word? body).map fun x => if negative then -x else x

/-- Why a text is not an integer of the wanted range. -/
inductive IntegerError where
  | empty
  | invalidDigit
  | tooLarge
  | tooSmall
  deriving DecidableEq, Repr

def IntegerError.message : IntegerError → String
  | .empty => "cannot parse integer from empty string"
  | .invalidDigit => "invalid digit found in string"
  | .tooLarge => "number too large to fit in target type"
  | .tooSmall => "number too small to fit in target type"

/-- Reads digits up to a limit; the first character at which either rule fails decides the error. -/
def readUpTo (limit : Nat) (excess : IntegerError) : Nat → List Char → Except IntegerError Nat
  | n, [] => .ok n
  | n, c :: rest =>
    if !c.isDigit then .error .invalidDigit
    else if limit < 10 * n + digitValue c then .error excess
    else readUpTo limit excess (10 * n + digitValue c) rest

/-- A whole text as a natural number of at most the given limit; a plus sign may stand in front. -/
def readNat (limit : Nat) (text : List Char) : Except IntegerError Nat :=
  match text with
  | [] => .error .empty
  | ['+'] => .error .invalidDigit
  | '+' :: ds => readUpTo limit .tooLarge 0 ds
  | ds => readUpTo limit .tooLarge 0 ds

/-- A whole text as an integer from `-(limit + 1)` to `limit`; either sign may stand in front. -/
def readInt (limit : Nat) (text : List Char) : Except IntegerError Int :=
  match text with
  | [] => .error .empty
  | ['+'] => .error .invalidDigit
  | ['-'] => .error .invalidDigit
  | '-' :: ds => (readUpTo (limit + 1) .tooSmall 0 ds).map fun n => -(n : Int)
  | '+' :: ds => (readUpTo limit .tooLarge 0 ds).map Int.ofNat
  | ds => (readUpTo limit .tooLarge 0 ds).map Int.ofNat

/-- A whole text as a 32-bit integer. -/
def int32? (text : List Char) : Option Int :=
  (readInt (Nat.pow 2 31 - 1) text).toOption

end Turnery.Number
