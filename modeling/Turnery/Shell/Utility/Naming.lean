import Turnery.Shell.Utility.Choice

/-!
# Paths as texts

The last step of a path, what stands before it, and the path from the root.
-/

namespace Turnery.Shell.Utility

open Turnery.Files

def lastStep (path : Octets) : Octets :=
  match ((path.splitOn '/').filter fun piece => !piece.isEmpty).getLast? with
  | some step => step
  | none => path.take 1

def withoutEnding (ending name : Octets) : Octets :=
  if ending.isSuffixOf name && ending != name then name.take (name.length - ending.length) else name

/-- Shows the last steps of paths. -/
def baseName : Utility :=
  choosing ⟨"az", "s", [("multiple", 'a'), ("suffix", 's'), ("zero", 'z')], true⟩ 1 fun name c => do
    let finish := if c.has 'z' then '\x00' else '\n'
    let several := c.has 'a' || c.has 's'
    match c.operands, several with
    | [], _ => lack name
    | paths, true =>
      let ending := (c.value? 's').getD []
      Act.send 1 (paths.flatMap fun path => withoutEnding ending (lastStep path) ++ [finish])
    | [path], false => Act.send 1 (lastStep path ++ [finish])
    | [path, ending], false => Act.send 1 (withoutEnding ending (lastStep path) ++ [finish])
    | _ :: _ :: extra :: _, false => refuse name ("extra operand " ++ quoted extra)

/-- What stands before the last step of a path. -/
def above (path : Octets) : Octets :=
  let body := (path.reverse.dropWhile (· == '/')).reverse
  let front := ((body.reverse.dropWhile (· != '/')).dropWhile (· == '/')).reverse
  if !front.isEmpty then front else if path.head? == some '/' then ['/'] else ['.']

/-- Shows what stands before the last steps of paths. -/
def directoryName : Utility :=
  choosing ⟨"z", "", [("zero", 'z')], false⟩ 1 fun name c => do
    let finish := if c.has 'z' then '\x00' else '\n'
    if c.operands.isEmpty then lack name
    else Act.send 1 (c.operands.flatMap fun path => above path ++ [finish])

/-- The place that steps name if links and what is missing are taken for directories. -/
def literalPlace (w : Workspace) (path : String) : Place :=
  (Path.steps path).foldl Workspace.next (w.origin path)

/-- The place to which steps lead as far as there is something, and which they name from there
on. -/
def furthestPlace (w : Workspace) (path : String) : Place :=
  (Path.steps path).foldl (fun place step =>
    (w.follow true (linkLimit + 1) place [step]).toOption.getD (Workspace.next place step))
      (w.origin path)

inductive Demand where
  /-- All but the last step. -/
  | directory
  | all
  | nothing

/-- The place to which a path leads if as much is there as has to be; links may be taken for
themselves. -/
def canonical (w : Workspace) (demand : Demand) (isLiteral : Bool) (path : String) :
    Except FileError Place := do
  let exact ← match demand, isLiteral with
    | .nothing, false => .ok (furthestPlace w path)
    | .nothing, true => .ok (literalPlace w path)
    | _, false => w.place? path
    | _, true => (w.entry? path).map fun _ => literalPlace w path
  if demand matches .all && (w.node? exact).isNone then .error .missing else .ok exact

def demandOf (c : Choices) : Demand :=
  match c.last? "efm" with
  | some 'e' => .all
  | some 'm' => .nothing
  | _ => .directory

/-- Shows the paths from the root to which paths lead. -/
def realPath : Utility :=
  choosing ⟨"eLmPqsz", "", [("canonicalize-existing", 'e'), ("canonicalize-missing", 'm'),
    ("quiet", 'q'), ("strip", 's'), ("no-symlinks", 's'), ("zero", 'z')], false⟩ 1 fun name c => do
      if c.operands.isEmpty then lack name
      c.operands.forM fun path => do
        match canonical (← get).workspace (demandOf c) (c.has 's') (Octets.toText path) with
        | .ok place =>
          Act.send 1 (Octets.ofText (Path.ofSteps place) ++
            (if c.has 'z' then ['\x00'] else ['\n']))
        | .error e =>
          if c.has 'q' then Act.setStatus 1 else complain name (shown path ++ ": " ++ e.reason)

def linkPath (w : Workspace) (path : String) : Except FileError String := do
  match ← w.look? path with
  | (_, .link target) => .ok target
  | _ => .error .invalid

/-- Shows where links lead, or the places at which paths end. -/
def readLink : Utility :=
  choosing ⟨"efmnqsvz", "", [("canonicalize", 'f'), ("canonicalize-existing", 'e'),
    ("canonicalize-missing", 'm'), ("no-newline", 'n'), ("verbose", 'v'), ("zero", 'z')], false⟩ 1
        fun name c => do
    let isLast := c.has 'n' && c.operands.length == 1
    if c.operands.isEmpty then lack name
    if c.has 'n' && 1 < c.operands.length then
      Act.send 2 (name ++ Octets.ofText ": ignoring --no-newline with multiple arguments\n")
    let finish := if isLast then [] else if c.has 'z' then ['\x00'] else ['\n']
    c.operands.forM fun path => do
      let w := (← get).workspace
      let text := Octets.toText path
      let found :=
        if c.has 'f' || c.has 'e' || c.has 'm' then
          (canonical w (demandOf c) false text).map Path.ofSteps
        else linkPath w text
      match found with
      | .ok path => Act.send 1 (Octets.ofText path ++ finish)
      | .error e =>
        if c.has 'v' then complain name (shown path ++ ": " ++ e.reason) else Act.setStatus 1

end Turnery.Shell.Utility
