import Turnery.Shell.Expansion
import Turnery.Shell.Opening

/-!
# Redirections

Redirections are made in order before a command runs and are undone behind it; what the command has
sent to files is in them then.
-/

namespace Turnery.Shell

open Turnery.Files

namespace Redirection

/-- The reason why a path cannot be opened, in the words of the shell. -/
def reason (missing : String) (e : FileError) : String :=
  match e with
  | .missing | .notDirectory => missing
  | e => e.reason

/-- Opens a file for writing; what it holds is kept if it is to be extended. -/
def openFile (descriptor : Nat) (keeps wanted : Bool) (path : Octets) : Act Bool := do
  let s := (← get).settle
  let text := Octets.toText path
  let isSpared := !keeps && !wanted && s.has "noclobber" && s.workspace.isFile text
  match if isSpared then .error .exists else Target.ofPath s keeps path with
  | .ok (target, w) => do
    set ({ s with workspace := w }.connect descriptor target)
    pure true
  | .error e => do
    Act.complain ("cannot create " ++ text ++ ": " ++ reason "Directory nonexistent" e)
    pure false

def readFile (descriptor : Nat) (path : Octets) : Act Bool := do
  let s := (← get).settle
  match Opening.ofPath s path with
  | .ok (.own source) => do
    set (s.feed descriptor source)
    pure true
  | .ok (.shared number) => do
    set (s.connect descriptor (.source number))
    pure true
  | .error .isDirectory => do
    set (s.feed descriptor (.ofFile []))
    pure true
  | .error e => do
    Act.complain ("cannot open " ++ Octets.toText path ++ ": " ++ reason "No such file" e)
    pure false

/-- Lets a descriptor lead where another leads, or closes it. -/
def copy (descriptor : Nat) (source : Octets) : Act Bool := do
  let s ← get
  if source == ['-'] then
    set (s.disconnect descriptor)
    pure true
  else if !source.all Char.isDigit || source.isEmpty then do
    Act.complain "Syntax error: Bad fd number"
    pure false
  else
    match s.target? (Number.natOfDigits source) with
    | some target => do
      set (s.connect descriptor target)
      pure true
    | none => do
      Act.complain (Octets.toText source ++ ": Bad file descriptor")
      pure false

/-- Makes a redirection and tells whether that was possible. -/
def make (output : Octets → Act Octets) : Redirection → Act Bool
  | .input descriptor path => do readFile descriptor (← Expansion.text output path)
  | .output descriptor wanted path =>
    do openFile descriptor false wanted (← Expansion.text output path)
  | .append descriptor path => do openFile descriptor true true (← Expansion.text output path)
  | .duplicate descriptor source => do copy descriptor (← Expansion.text output source)
  | .document descriptor text => do
    let content ← Expansion.text output text
    modify fun s => s.feed descriptor (.ofPipe content)
    pure true

/-- Makes redirections up to the first that is not possible. -/
def makeAll (output : Octets → Act Octets) : List Redirection → Act Bool
  | [] => pure true
  | r :: rest => do
    if ← make output r then makeAll output rest else pure false

def descriptor : Redirection → Nat
  | input descriptor _ => descriptor
  | output descriptor _ _ => descriptor
  | append descriptor _ => descriptor
  | duplicate descriptor _ => descriptor
  | document descriptor _ => descriptor

/-- The state in which some descriptors lead again where they led before. Texts that have been
opened since and that nothing leads to are given up. -/
def undo (before : State) (redirected : List Nat) (s : State) : State :=
  let isOurs (entry : Nat × Target) : Bool := redirected.contains entry.1
  let descriptors :=
    before.descriptors.filter isOurs ++ s.descriptors.filter fun entry => !isOurs entry
  let fresh := before.freshSource
  let isNeeded (number : Nat) : Bool :=
    number < fresh || descriptors.any fun entry => entry.2 == .source number
  { s with descriptors := descriptors, sources := s.sources.filter fun entry => isNeeded entry.1 }

/-- Does something under redirections, or something else if one of them is not possible, and undoes
them. -/
def during (output : Octets → Act Octets) (rs : List Redirection) (otherwise act : Act Unit) :
    Act Unit := do
  let before ← get
  let possible ← makeAll output rs
  let result ← Act.attempt (if possible then act else otherwise)
  modify fun s => undo before (rs.map descriptor) s.settle
  match result with
  | .ok () => pure ()
  | .error flow => throw flow

end Redirection

end Turnery.Shell
