/-!
# Paths

A path names a place by steps that are separated by slashes; empty steps and single dots lead
nowhere. An absolute path starts at the root. These functions look at the text of a path alone, not
at the files that exist.
-/

namespace Turnery.Files.Path

def isAbsolute (path : String) : Bool :=
  path.toList.head? == some '/'

/-- The pieces of a path between slashes. -/
def pieces (path : String) : List String :=
  (path.toList.splitOn '/').map String.ofList

/-- A piece leads somewhere. -/
def isStep (piece : String) : Bool :=
  piece != "" && piece != "."

def steps (path : String) : List String :=
  (pieces path).filter isStep

/-- The path ends in a way that only a directory can fulfil. -/
def namesDirectory (path : String) : Bool :=
  match (pieces path).getLast? with
  | some last => !isStep last
  | none => false

/-- The last step, unless that leads upwards. -/
def fileName? (path : String) : Option String :=
  (steps path).getLast?.filter (· != "..")

/-- What follows the last point of the file name, if something precedes that point. -/
def extension? (path : String) : Option String := do
  let name ← fileName? path
  let backwards := name.toList.reverse
  let extension := backwards.takeWhile (· != '.')
  match backwards.drop extension.length with
  | [] => none
  | ['.'] => none
  | _ => some (String.ofList extension.reverse)

/-- The extension with capitals made small; the empty text if there is none. -/
def lowerExtension (path : String) : String :=
  String.ofList (((extension? path).getD "").toList.map Char.toLower)

/-- The path that leads to the second from where the first leads. -/
def join (base path : String) : String :=
  if isAbsolute path || base == "" then path
  else if base.toList.getLast? == some '/' then base ++ path
  else base ++ "/" ++ path

def ofSteps (steps : List String) : String :=
  "/" ++ "/".intercalate steps

/-- The places above a list of steps, the list itself first. -/
def ancestors (steps : List String) : List (List String) :=
  (List.range (steps.length + 1)).map fun n => steps.take (steps.length - n)

end Turnery.Files.Path
