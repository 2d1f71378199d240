import Turnery.Shell.State

/-!
# Opening files

What a path gives to be read and where it takes what is written. A path may lead to a device, and a
device may stand for what a descriptor leads to: a file is opened anew then, and anything else is
shared.
-/

namespace Turnery.Shell

open Turnery.Files

/-- What a path gives to be read: a text of its own, or one that others read too. -/
inductive Opening where
  | own (source : Source)
  | shared (source : Nat)

namespace Opening

/-- How many bytes of an endless text are read, or of an endless output made; nobody is taken to
want more. -/
def endlessSize : Nat := Nat.pow 2 18

/-- Bytes that look as if nobody could foresee them. -/
def noise : Nat → Nat → Octets
  | 0, _ => []
  | more + 1, seed =>
    let seed := (seed * 1103515245 + 12345) % Nat.pow 2 31
    Char.ofNat (seed / Nat.pow 2 16 % 256) :: noise more seed

/-- What the file at a place gives to be read. -/
def ofPlace (w : Workspace) (place : Place) : Opening :=
  match w.node? place with
  | some (.file content) => .own (.ofFile (Octets.ofBytes content))
  | _ => .own .silent

def ofDevice (s : State) : Device → Except FileError Opening
  | .null => .ok (.own .silent)
  | .zero | .full => .ok (.own ⟨List.replicate endlessSize '\x00', .device⟩)
  | .random => .ok (.own ⟨noise endlessSize s.workspace.serial, .device⟩)
  | .terminal => .error .noDevice
  | .channel descriptor =>
    match s.target? descriptor with
    | none => .error .missing
    | some (.source number) =>
      match (s.sources.lookup number).map Source.origin with
      | some (.file whole) => .ok (.own (.ofFile whole))
      | _ => .ok (.shared number)
    | some (.file place) => .ok (ofPlace s.settle.workspace place)
    | some _ => .ok (.own .silent)

def ofPath (s : State) (path : Octets) : Except FileError Opening :=
  let text := Octets.toText path
  match s.workspace.find? text with
  | .ok (.device device) => ofDevice s device
  | _ => (s.workspace.read text).map fun bytes => .own (.ofFile (Octets.ofBytes bytes))

def text (s : State) : Opening → Octets
  | own source => source.rest
  | shared number => ((s.sources.lookup number).map Source.rest).getD []

/-- The state after the text has been read up to a rest. -/
def leave (s : State) (rest : Octets) : Opening → State
  | own _ => s
  | shared number => s.leaveSource number rest

end Opening

namespace Target

def ofDevice (s : State) : Device → Except FileError Target
  | .terminal => .error .noDevice
  | .channel descriptor =>
    match s.target? descriptor with
    | none => .error .missing
    | some target => .ok target
  | other => .ok (.device other)

/-- Where a path takes what is written, in a workspace that holds the file. What the file holds is
kept if it is to be extended. -/
def ofPath (s : State) (keeps : Bool) (path : Octets) : Except FileError (Target × Workspace) := do
  let text := Octets.toText path
  let emptied (place : Place) : Workspace :=
    if keeps && s.workspace.node? place matches some (.file _) then s.workspace
    else s.workspace.put place (.file [])
  match s.workspace.find? text with
  | .ok (.device d) =>
    match ← ofDevice s d with
    | .file place => .ok (.file place, emptied place)
    | target => .ok (target, s.workspace)
  | _ =>
    let w ← s.workspace.write text []
    let place ← w.place? text
    .ok (.file place, if keeps then s.workspace.append place [] else w)

end Target

end Turnery.Shell
