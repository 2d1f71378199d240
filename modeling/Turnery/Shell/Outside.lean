import Turnery.Shell.Utility
import Turnery.Shell.Wrapping

/-!
# What lies outside the workspace

Scripts may call programs that are not in the workspace, and ask whether they are there.
-/

namespace Turnery.Shell.Outside

open Turnery.Files

def shellNames : List String := ["sh", "dash", "bash"]

def isShell (name : String) : Bool :=
  shellNames.contains (Utility.plainName name)

/-- The programs whose work is done by the shell. -/
def innerNames : List String := ["[", "sleep", "test", "which"]

def isProgram (name : String) : Bool :=
  let plain := Utility.plainName name
  isShell name || (Utility.find? name).isSome || (Wrapping.table.lookup plain).isSome ||
    innerNames.contains plain

/-- The path of the program that a name without directories calls. -/
def programPath? (name : String) : Option String :=
  if !name.contains '/' && isProgram name then some ("/usr/bin/" ++ name) else none

def isProgramPath (path : String) : Bool :=
  Path.isAbsolute path && isProgram path

end Turnery.Shell.Outside
