import Turnery.Files.Workspace
import Turnery.Number.Radix

/-!
# Unique names

Files that must not collide carry a random identifier: 32 hexadecimal digits in five groups, of
which one digit each tells the version and the variant. The workspace numbers the identifiers that
it hands out.
-/

namespace Turnery.Files

def identifier (serial : Nat) : String :=
  let ds := Number.hexDigits 32 serial
  let group (start count : Nat) := (ds.drop start).take count
  String.ofList (group 0 8 ++ '-' :: group 8 4 ++ '-' :: '4' :: group 13 3 ++
    '-' :: 'a' :: group 17 3 ++ '-' :: group 20 12)

/-- The next identifier, and the workspace in which it is used up. -/
def Workspace.fresh (w : Workspace) : String × Workspace :=
  (identifier w.serial, { w with serial := w.serial + 1 })

end Turnery.Files
