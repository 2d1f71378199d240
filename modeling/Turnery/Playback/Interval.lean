import Turnery.Number.Binary64
import Turnery.Number.Rounding

/-!
# The interval between two positions

Intervals are counted in nanoseconds. A speed divides the base interval; the quotient is rounded to
nanoseconds, and one that is too long becomes the longest interval.
-/

namespace Turnery.Playback

def nanosPerSecond : Nat := Nat.pow 10 9

def nanosPerMilli : Nat := Nat.pow 10 6

/-- The longest interval: one nanosecond less than `2 ^ 64` seconds. -/
def longest : Nat := Nat.pow 2 64 * nanosPerSecond - 1

def seconds (nanos : Nat) : Float :=
  Float.ofNat (nanos / nanosPerSecond) + Float.ofNat (nanos % nanosPerSecond) / 1e9

/-- Seconds as nanoseconds, a tie going to the even number, if they make an interval. -/
def ofSeconds? (x : Float) : Option Nat :=
  match Number.Binary64.ofFloat x with
  | .finite negative mantissa exponent =>
    if negative && mantissa != 0 then none
    else
      let nanos :=
        Number.roundDiv .toEven (Number.Binary64.numerator mantissa exponent * nanosPerSecond)
          (Number.Binary64.denominator exponent)
      if nanos ≤ longest then some nanos else none
  | _ => none

/-- A speed that is not positive and finite counts as one. -/
def effectiveSpeed (speed : Float) : Float :=
  if speed.isFinite && decide (0 < speed) then speed else 1

/-- The interval between two positions at a speed. -/
def intervalFor (base : Nat) (speed : Float) : Nat :=
  (ofSeconds? (seconds base / effectiveSpeed speed)).getD longest

/-- An interval in milliseconds, rounded up. -/
def wholeMillis (nanos : Nat) : Nat :=
  (nanos + (nanosPerMilli - 1)) / nanosPerMilli

end Turnery.Playback
