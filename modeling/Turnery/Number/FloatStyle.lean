import Turnery.Number.Shortest
import Turnery.Number.Fixed

/-!
# Styles of writing doubles

A style lays the shortest digits of a double out as text: for which sizes it is positional, whether
whole numbers keep a decimal, and how an exponent is written. `plain` is the style of messages,
`tomlFloat` and `jsonFloat` are the styles of the two settings formats.
-/

namespace Turnery.Number

/-- How the shortest digits of a double are laid out. -/
structure FloatStyle where
  /-- Where a decimal halfway between two candidates goes. -/
  tie : Tie
  /-- Positional for `low ≤ e < high`, where `e` is the exponent of the first digit; always if
  absent. -/
  positional : Option (Int × Int)
  /-- A whole number in positional form ends in `.0`. -/
  wholePoint : Bool
  /-- An exponent that is not negative has a plus sign. -/
  plusSign : Bool

namespace FloatStyle

/-- Messages write doubles positionally, whole numbers without a point. -/
def plain : FloatStyle := ⟨.away, none, false, false⟩

/-- TOML writes doubles positionally with at least one decimal. -/
def tomlFloat : FloatStyle := ⟨.away, none, true, false⟩

/-- JSON turns to exponents below `10 ^ -5` and from `10 ^ 16` on. -/
def jsonFloat : FloatStyle := ⟨.toEven, some (-5, 16), true, true⟩

def positionalText (wholePoint : Bool) (ds : List Char) (exponent : Int) : List Char :=
  let point : Int := ds.length + exponent
  if 0 ≤ exponent then
    ds ++ List.replicate exponent.toNat '0' ++ (if wholePoint then ['.', '0'] else [])
  else if 0 < point then
    ds.take point.toNat ++ '.' :: ds.drop point.toNat
  else
    '0' :: '.' :: List.replicate (-point).toNat '0' ++ ds

def integerText (plusSign : Bool) (n : Int) : List Char :=
  (if n < 0 then ['-'] else if plusSign then ['+'] else []) ++ digits n.natAbs

/-- One digit, the others behind a point, and the exponent of the first digit. -/
def scientificText (plusSign : Bool) (ds : List Char) (exponent : Int) : List Char :=
  let lead : Int := ds.length + exponent - 1
  ds.take 1 ++ (if ds.length > 1 then '.' :: ds.drop 1 else []) ++
    'e' :: integerText plusSign lead

/-- The text of a decimal without sign. -/
def decimalText (style : FloatStyle) (d : Decimal) : List Char :=
  let ds := digits d.digits
  let lead : Int := ds.length + d.exponent - 1
  let isPositional := match style.positional with
    | none => true
    | some (low, high) => d.digits == 0 || (low ≤ lead && lead < high)
  if isPositional then positionalText style.wholePoint ds d.exponent
  else scientificText style.plusSign ds d.exponent

def text (style : FloatStyle) (x : Float) : String :=
  match Binary64.ofFloat x with
  | .nan => "NaN"
  | .infinite negative => signed negative "inf"
  | .finite negative mantissa exponent =>
    signed negative (String.ofList (style.decimalText (shortest style.tie mantissa exponent)))

end FloatStyle

end Turnery.Number
