import Turnery.Command.Run
import Turnery.Command.Surroundings
import Turnery.Shell.Program

/-!
# The program

Runs a command line on the files of the computer. What the command line looks at is loaded into a
workspace, the command line is run in it, and what has changed is written back. All that is decided
is decided in the library.
-/

namespace Turnery

open Turnery.Files

def nodeAt? (place : Place) : IO (Option Node) := do
  let path := (← IO.currentDir) / Path.ofSteps place
  if ← path.isDir then return some .directory
  if ← path.pathExists then return some (.file (← IO.FS.readBinFile path).toList)
  return none

def loadPlace (w : Workspace) (place : Place) : IO Workspace := do
  if (w.node? place).isSome then return w
  match ← nodeAt? place with
  | some node => return w.put place node
  | none => return w

/-- The workspace with what a command line looks at. -/
def load (words : List String) (w : Workspace) : IO Workspace :=
  (Command.placesLookedAt words w).foldlM loadPlace w

/-- The value of a variable of the environment with its name. -/
def variableOf (name : String) : IO (Option (String × String)) := do
  return (← IO.getEnv name).map fun value => (name, value)

/-- The surroundings of the program, of which nothing has been loaded. -/
def surroundings : IO Workspace := do
  let environment ← Command.environmentNames.filterMapM variableOf
  let home := Path.steps (← IO.currentDir).toString
  let program := Path.steps (← IO.appPath).toString
  let random ← IO.getRandomBytes 16
  return ⟨home, [], environment, some program.dropLast,
    random.toList.foldl (fun n b => 256 * n + b.toNat) 0, []⟩

def storeNode (place : Place) : Node → IO Unit
  | .directory => IO.FS.createDirAll (Path.ofSteps place)
  | .file content => IO.FS.writeBinFile (Path.ofSteps place) (ByteArray.mk content.toArray)
  | .link _ | .device _ => pure ()

def removeNode (place : Place) : Node → IO Unit
  | .directory => IO.FS.removeDir (Path.ofSteps place)
  | _ => IO.FS.removeFile (Path.ofSteps place)

/-- Writes back what has changed, with what links lead to in place of the links. What has been put
first is made first and removed last. -/
def store (before after : Workspace) : IO Unit := do
  for (place, node) in before.nodes do
    if (after.node? place).isNone then removeNode place node
  for (place, node) in after.nodes.reverse do
    if before.node? place != some node then
      storeNode place ((after.find? (Path.ofSteps place)).toOption.getD node)

/-- Shows texts with their time between each two. -/
def showTexts (interval : Nat) : List String → IO Unit
  | [] => pure ()
  | [text] => IO.print text
  | text :: rest => do
    IO.print text
    (← IO.getStdout).flush
    IO.sleep (interval / 1000000).toUInt32
    showTexts interval rest

end Turnery

open Turnery in
/-- Runs the command line. -/
def main (words : List String) : IO UInt32 := do
  let bare ← surroundings
  let w ← load words (← load words bare)
  let outcome := Command.run Shell.programs words w
  store w outcome.workspace
  showTexts outcome.display.interval outcome.display.texts
  IO.eprint outcome.complaint
  return outcome.status.toUInt32
