import Turnery.Files.Path
import Turnery.Number.Digits

/-!
# Devices and standing directories

Some files keep nothing of what is written to them, and some directories are there on every system.
Both are known by their places.
-/

namespace Turnery.Files

/-- A place, as the steps that lead to it from the root. -/
abbrev Place := List String

/-- A file that keeps nothing. -/
inductive Device where
  /-- It takes all and gives nothing. -/
  | null
  /-- It takes all and gives zeros without end. -/
  | zero
  /-- It takes nothing and gives zeros without end. -/
  | full
  /-- It takes all and gives bytes that nobody can foresee, without end. -/
  | random
  /-- The terminal, of which there is none. -/
  | terminal
  /-- What a descriptor of the program leads to. -/
  | channel (descriptor : Nat)
  deriving DecidableEq, Repr

namespace Device

/-- The devices in the directory of devices. -/
def named : List (String × Device) :=
  [("full", full), ("null", null), ("random", random), ("stderr", channel 2), ("stdin", channel 0),
    ("stdout", channel 1), ("tty", terminal), ("urandom", random), ("zero", zero)]

/-- The channel that a text of digits names. -/
def channel? (text : String) : Option Device :=
  let n := Number.natOfDigits text.toList
  if Number.natText n == text then some (channel n) else none

def ofPlace? : Place → Option Device
  | ["dev", name] => named.lookup name
  | ["dev", "fd", text] | ["proc", "self", "fd", text] => channel? text
  | _ => none

end Device

namespace Place

/-- The directories that are always there, besides the root. -/
def standing : List Place :=
  [["bin"], ["dev"], ["etc"], ["home"], ["lib"], ["opt"], ["proc"], ["root"], ["sbin"], ["sys"],
    ["tmp"], ["usr"], ["var"], ["dev", "fd"], ["proc", "self"], ["proc", "self", "fd"],
    ["usr", "bin"], ["usr", "lib"], ["usr", "local"], ["usr", "sbin"], ["usr", "share"]]

end Place

end Turnery.Files
