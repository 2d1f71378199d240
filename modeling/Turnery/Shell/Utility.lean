import Turnery.Shell.Utility.Block
import Turnery.Shell.Utility.Calculation
import Turnery.Shell.Utility.Characters
import Turnery.Shell.Utility.Columns
import Turnery.Shell.Utility.Comparison
import Turnery.Shell.Utility.Dump
import Turnery.Shell.Utility.Editor
import Turnery.Shell.Utility.Extent
import Turnery.Shell.Utility.Ordering
import Turnery.Shell.Utility.Search
import Turnery.Shell.Utility.Sequence
import Turnery.Shell.Utility.System
import Turnery.Shell.Utility.Tally
import Turnery.Shell.Utility.Transfer

/-!
# Utilities

The utilities by their names, and where they lie.
-/

namespace Turnery.Shell.Utility

open Turnery.Files

def table : List (String × Utility) :=
  [("basename", baseName), ("cat", catenate), ("chmod", changeMode), ("cmp", compareBytes),
    ("cp", copy), ("cut", cut), ("date", date), ("dd", copyBlocks), ("diff", compareLines),
    ("dirname", directoryName), ("echo", echo),
    ("egrep", fun _ => search [('E', [])] "grep".toList), ("expr", calculate),
    ("false", fun _ _ => Act.setStatus 1), ("fgrep", fun _ => search [('F', [])] "grep".toList),
    ("find", find), ("grep", search []), ("head", head), ("id", identity), ("link", linkOne),
    ("ln", link), ("ls", list), ("mkdir", makeDirectory), ("mktemp", makeUnique), ("mv", move),
    ("nl", numberLines), ("od", dump), ("paste", paste), ("printenv", printVariables),
    ("printf", print), ("pwd", workDirectory), ("readlink", readLink), ("realpath", realPath),
    ("rev", reverseCharacters), ("rm", remove), ("rmdir", removeDirectory), ("sed", editLines),
    ("seq", sequence), ("sort", sort), ("sync", plain fun _ _ => pure ()), ("tac", reverseLines),
    ("tail", tail), ("tee", tee), ("touch", touch), ("tr", exchange), ("true", fun _ _ => pure ()),
    ("truncate", truncate), ("uname", systemName), ("uniq", distinctLines), ("unlink", unlink),
    ("wc", wordCount), ("whoami", userName), ("yes", repeatLine)]

def directories : List String := ["/bin/", "/usr/bin/"]

/-- The name of a program without a directory that holds utilities. -/
def plainName (name : String) : String :=
  match directories.find? fun d => d.toList.isPrefixOf name.toList with
  | some d => String.ofList (name.toList.drop d.length)
  | none => name

def find? (name : String) : Option Utility :=
  table.lookup (plainName name)

/-- The statuses of utilities that could not write to their output, where they differ from one. -/
def outputStatuses : List (String × Nat) :=
  [("diff", 2), ("env", 125), ("expr", 3), ("grep", 2), ("ls", 2), ("printenv", 2), ("sed", 4),
    ("sort", 2)]

/-- What a utility says that could not write to its output. -/
def outputComplaints (name : String) (e : FileError) : List String :=
  let because (text : String) : String := text ++ ": " ++ e.reason
  let isClosed := e == .closed
  match plainName name with
  | "cat" => [because (if isClosed then "standard output" else "write error")]
  | "diff" | "yes" => [because "standard output"]
  | "find" =>
    [because "'standard output'", if isClosed then because "write error" else "write error"]
  | "sed" => [because (if isClosed then "couldn't close stdout" else "couldn't flush stdout")]
  | "sort" => [because "fflush failed: 'standard output'", "write error"]
  | "tee" => [because "'standard output'"]
  | "wc" => [if isClosed then because "write error" else "write error"]
  | _ => [because "write error"]

def complainOfOutput (name : Octets) (e : FileError) : Act Unit := do
  let text := Octets.toText name
  (outputComplaints text e).forM (complain name)
  Act.setStatus ((outputStatuses.lookup (plainName text)).getD 1)

end Turnery.Shell.Utility
