import Turnery.Number.Binary64
import Turnery.Number.Digits
import Turnery.Number.Rounding

/-!
# The shortest decimal that reads back

A positive double is the value of all reals closer to it than to its neighbours; the ends of that
interval belong to it exactly if its mantissa is even. Among the decimals in the interval, the ones
with the fewest digits are looked for, and of those the one nearest to the double is taken.
-/

namespace Turnery.Number

structure Decimal where
  digits : Nat
  exponent : Int
  deriving DecidableEq, Repr

namespace Shortest

/-- The bounds of the reals that read as `mantissa · 2 ^ exponent`, in units of `2 ^ (exponent -
2)`. The gap below a power of two is half the gap above it. -/
def bounds (mantissa : Nat) (exponent : Int) : Nat × Nat :=
  let lower :=
    if mantissa == Nat.pow 2 52 && exponent > -1074 then 4 * mantissa - 1 else 4 * mantissa - 2
  (lower, 4 * mantissa + 2)

/-- The position of the first digit: the `k` with `10 ^ (k - 1) ≤ num / den < 10 ^ k`, for a
quotient that is at least one or no inverse power of ten. -/
def leadingPlace (num den : Nat) : Int :=
  if den ≤ num then (digits (num / den)).length else 1 - ((digits (den / num)).length : Int)

/-- A value between two bounds, all three over one denominator. -/
structure Window where
  low : Nat
  value : Nat
  high : Nat
  closed : Bool

/-- The multiple of `unit` lies in the window. -/
def Window.holds (w : Window) (unit candidate : Nat) : Bool :=
  if w.closed then w.low ≤ candidate * unit && candidate * unit ≤ w.high
  else w.low < candidate * unit && candidate * unit < w.high

/-- The multiple of `unit` that lies in the window and is nearest to its value. -/
def Window.nearest? (w : Window) (tie : Tie) (unit : Nat) : Option Nat :=
  let below := w.value / unit
  let above := below + 1
  match w.holds unit below, w.holds unit above with
  | false, false => none
  | true, false => some below
  | false, true => some above
  | true, true => some (roundDiv tie w.value unit)

/-- The window and the grid of spacing `10 ^ place`, both made integral. -/
def windowAt (mantissa : Nat) (exponent place : Int) : Window × Nat :=
  let scale := Nat.pow 2 (exponent - 2).toNat * Nat.pow 10 (-place).toNat
  let unit := Nat.pow 2 (2 - exponent).toNat * Nat.pow 10 place.toNat
  let (low, high) := bounds mantissa exponent
  (⟨low * scale, 4 * mantissa * scale, high * scale, mantissa % 2 == 0⟩, unit)

/-- The first hit among the grids with `count`, `count + 1`, … digits. -/
def search (tie : Tie) (mantissa : Nat) (exponent lead : Int) : Nat → Nat → Option Decimal
  | 0, _ => none
  | more + 1, count =>
    let place := lead - count
    let (window, unit) := windowAt mantissa exponent place
    match window.nearest? tie unit with
    | some n => some ⟨n, place⟩
    | none => search tie mantissa exponent lead more (count + 1)

end Shortest

/-- The decimal without zeros at the end of its digits. -/
def Decimal.strip (d : Decimal) : Decimal :=
  let ds := Turnery.Number.digits d.digits
  let kept := dropTrailingZeros ds
  ⟨natOfDigits kept, d.exponent + (ds.length - kept.length : Nat)⟩

/-- The shortest decimal that reads back as `mantissa · 2 ^ exponent`; seventeen digits always
do. -/
def shortest (tie : Tie) (mantissa : Nat) (exponent : Int) : Decimal :=
  if mantissa == 0 then ⟨0, 0⟩
  else
    let lead :=
      Shortest.leadingPlace (Binary64.numerator mantissa exponent) (Binary64.denominator exponent)
    ((Shortest.search tie mantissa exponent lead 17 1).getD ⟨mantissa, exponent⟩).strip

end Turnery.Number
