import Turnery.Shell.Option

/-!
# The current directory

The shell knows the directory in which it works by the path over which it got there. A step upwards
undoes the step before it in that path, whether or not that was a link, unless the shell is told to
follow links.
-/

namespace Turnery.Shell

open Turnery.Files

namespace Directory

/-- A path begins with two slashes and no more. -/
def isDoubled (path : Octets) : Bool :=
  path.take 2 == ['/', '/'] && path[2]? != some '/'

/-- The path to which another leads from a directory if a step upwards undoes the step before it. -/
def pathFrom (directory path : Octets) : Octets :=
  let isAbsolute := path.head? == some '/'
  let lead := if isDoubled (if isAbsolute then path else directory) then ['/', '/'] else ['/']
  let steps := (if isAbsolute then [] else directory.splitOn '/') ++ path.splitOn '/'
  let taken := steps.foldl (fun front step =>
    if step.isEmpty || step == ['.'] then front
    else if step == ['.', '.'] then front.dropLast
    else front ++ [step]) []
  lead ++ ['/'].intercalate taken

/-- The directory that a shell takes for its own when it starts: the one it is told of if that is
where it works. -/
def told (s : State) : Octets :=
  let physical := Octets.ofText (Path.ofSteps s.workspace.home)
  match s.valueOf? "PWD".toList with
  | some path =>
    let isThere := (s.workspace.place? (Octets.toText path)).toOption == some s.workspace.home
    if path.head? == some '/' && isThere then path else physical
  | none => physical

/-- Works in another directory from now on; the answer is whether that was possible. -/
def enter (isPhysical : Bool) (path : Octets) : Act Bool := do
  let s ← get
  let goal := if isPhysical then path else pathFrom s.directory path
  let text := Octets.toText goal
  match s.workspace.find? text, s.workspace.place? text with
  | .ok .directory, .ok place => do
    set { s with workspace := { s.workspace with home := place } }
    Act.assign "OLDPWD".toList s.directory
    let directory := if isPhysical then Octets.ofText (Path.ofSteps place) else goal
    modify fun s => { s.publish "OLDPWD".toList with directory := directory }
    Act.assign "PWD".toList directory
    modify fun s => s.publish "PWD".toList
    pure true
  | _, _ => pure false

def isRooted (path : Octets) : Bool :=
  path.head? == some '/' || path == ['.'] || path == ['.', '.'] || ['.', '/'].isPrefixOf path ||
    ['.', '.', '/'].isPrefixOf path

/-- The first directory of a list in which a path leads to a directory: the path from there, and
whether it is to be shown. -/
def search? (w : Workspace) (list path : Octets) : Option (Octets × Bool) :=
  let candidates := (list.splitOn ':').map fun front =>
    if front.isEmpty then (path, false) else (front ++ '/' :: path, true)
  candidates.find? fun (candidate, _) => w.isDirectory (Octets.toText candidate)

end Directory

namespace Builtin

def changeDirectory (arguments : List Octets) : Act Unit := do
  let (letters, operands) ← options "LP" arguments
  let s ← get
  let isBack := operands.head? == some ['-']
  let wanted :=
    if isBack then s.valueOf? "OLDPWD".toList else operands.head?.or (s.valueOf? "HOME".toList)
  let wanted := wanted.getD []
  let list := (s.valueOf? "CDPATH".toList).filter fun _ => !Directory.isRooted wanted
  let path := if wanted.isEmpty then ['.'] else wanted
  let found := (list.bind fun list => Directory.search? s.workspace list path).getD (path, false)
  if ← Directory.enter (letters.getLast? == some 'P') found.1 then
    if isBack || found.2 then Act.send 1 ((← get).directory ++ ['\n'])
    Act.setStatus 0
  else Act.fail ("can't cd to " ++ Octets.toText wanted)

def showDirectory (arguments : List Octets) : Act Unit := do
  let (letters, _) ← options "LP" arguments
  let s ← get
  let physical := Octets.ofText (Path.ofSteps s.workspace.home)
  Act.send 1 ((if letters.getLast? == some 'P' then physical else s.directory) ++ ['\n'])
  Act.setStatus 0

end Builtin

end Turnery.Shell
