/-!
# Data

The tree of values that settings are read from and written as, whatever the format of the file.
-/

namespace Turnery

/-- A value of a settings file. -/
inductive Datum where
  | null
  | bool (b : Bool)
  | integer (n : Int)
  | real (x : Float)
  | text (s : String)
  | list (items : List Datum)
  /-- Values with names; a name that cannot be read is absent. -/
  | record (members : List (Option String × Datum))
  /-- A value that is written correctly and denotes nothing. -/
  | unreadable

namespace Datum

def bool? : Datum → Option Bool
  | bool b => some b
  | _ => none

def nat? : Datum → Option Nat
  | integer n => if 0 ≤ n then some n.toNat else none
  | _ => none

/-- The double nearest to an integer. -/
def floatOfInt (n : Int) : Float :=
  if n < 0 then -Float.ofNat n.natAbs else Float.ofNat n.natAbs

/-- A number; integers count. -/
def real? : Datum → Option Float
  | real x => some x
  | integer n => some (floatOfInt n)
  | _ => none

def text? : Datum → Option String
  | text s => some s
  | _ => none

def texts? : Datum → Option (List String)
  | list items => items.mapM text?
  | _ => none

def valuesOf (name : String) (members : List (Option String × Datum)) : List Datum :=
  (members.filter fun m => m.1 == some name).map Prod.snd

def namesReadable (members : List (Option String × Datum)) : Bool :=
  members.all fun m => m.1.isSome

end Datum

end Turnery
