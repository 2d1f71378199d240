import Turnery.Files.UniqueName
import Turnery.Number.Radix
import Turnery.Shell.Utility.Naming

/-!
# Making, filling and removing files

Each operand is dealt with by itself; a complaint about one does not keep the others from being
dealt with.
-/

namespace Turnery.Shell.Utility

open Turnery.Files

def tryTo (name : Octets) (lead : String) (change : Workspace → Except FileError Workspace) :
    Act Bool := do
  let s ← get
  match change s.workspace with
  | .ok w => do
    set { s with workspace := w }
    pure true
  | .error e => do
    complain name (lead ++ ": " ++ e.reason)
    pure false

def remark (wanted : Bool) (message : String) : Act Unit :=
  if wanted then Act.send 1 (Octets.ofText (message ++ "\n")) else pure ()

def node? (path : Octets) : Act (Except FileError Node) := do
  pure ((← get).workspace.find? (Octets.toText path))

def touch : Utility :=
  choosing ⟨"acfhm", "drt", [("no-create", 'c'), ("date", 'd'), ("reference", 'r')], false⟩ 1
      fun name c => do
    if c.operands.isEmpty then refuse name "missing file operand"
    c.operands.forM fun path => do
      let text := Octets.toText path
      if c.has 'h' && !c.has 'c' then
        let _ ← tryTo name ("setting times of " ++ quoted path) fun w =>
          (w.look? text).map fun _ => w
      else
        let _ ← tryTo name ("cannot touch " ++ quoted path) fun w =>
          match w.find? text with
          | .ok _ => .ok w
          | .error .missing => if c.has 'c' then .ok w else w.write text []
          | .error e => .error e

def newDirectory (w : Workspace) (path : String) : Except FileError Workspace := do
  let place ← w.entry? path
  if (w.node? place).isSome then .error .exists else .ok (w.put place .directory)

/-- Makes directories one after another. -/
def makeEach (name : Octets) (isToldOf : Bool) (path : Octets) : List Octets → Act Unit
  | [] => pure ()
  | step :: rest => do
    let w := (← get).workspace
    if w.contains (Octets.toText step) && !rest.isEmpty then makeEach name isToldOf path rest
    else
      match w.find? (Octets.toText step) with
      | .ok .directory => pure ()
      | _ => do
        let made ← tryTo name ("cannot create directory " ++
            quoted (if rest.isEmpty then path else step)) fun w =>
          newDirectory w (Octets.toText step)
        if made then
          remark isToldOf (Octets.toText name ++ ": created directory " ++ quoted step)
          makeEach name isToldOf path rest

/-- A path and the paths above it, the highest first. -/
def stages (path : Octets) : List Octets :=
  let body := (path.reverse.dropWhile (· == '/')).reverse
  let ends := (List.range body.length).filter fun n =>
    body[n]? == some '/' && n != 0 && body[n - 1]? != some '/'
  ends.map body.take ++ [path]

def makeDirectory : Utility :=
  choosing ⟨"pvZ", "m", [("parents", 'p'), ("verbose", 'v'), ("mode", 'm')], false⟩ 1 fun name c =>
      do
    if c.operands.isEmpty then lack name
    c.operands.forM fun path => do
      if c.has 'p' then makeEach name (c.has 'v') path (stages path)
      else
        let made ← tryTo name ("cannot create directory " ++ quoted path) fun w =>
          newDirectory w (Octets.toText path)
        if made then
          remark (c.has 'v') (Octets.toText name ++ ": created directory " ++ quoted path)

/-- A name that nothing has, in place of the last signs of a pattern. -/
def uniqueName (serial : Nat) (pattern : Octets) : Octets :=
  let blanks := (pattern.reverse.takeWhile (· == 'X')).length
  pattern.take (pattern.length - blanks) ++ Number.hexDigits blanks serial

/-- The options of what makes files and directories with unique names. -/
def uniqueVocabulary : Vocabulary where
  flags := "dqtu"
  valued := "p\x03"
  words :=
    [("directory", 'd'), ("quiet", 'q'), ("dry-run", 'u'), ("tmpdir", 'p'), ("suffix", '\x03')]
  isOrdered := false

/-- Makes a file or a directory with a name that nothing has. -/
def makeUnique : Utility :=
  choosing uniqueVocabulary 1 fun name c => do
    let s ← get
    let home := (s.valueOf? "TMPDIR".toList).getD "/tmp".toList
    let pattern := (c.operands.head?).getD "tmp.XXXXXXXXXX".toList
    let directory :=
      if c.operands.isEmpty || c.has 't' || c.has 'p' then some ((c.value? 'p').getD home) else none
    let blanks := (pattern.reverse.takeWhile (· == 'X')).length
    if blanks < 3 then complain name ("too few X's in template " ++ quoted pattern)
    else
      let (_, w) := s.workspace.fresh
      let path := uniqueName w.serial pattern
      let path := directory.elim path fun d => d ++ '/' :: path
      set { s with workspace := w }
      let noun := if c.has 'd' then "directory" else "file"
      let lead := "failed to create " ++ noun ++ " via template " ++ quoted pattern
      let made ← tryTo name lead fun w =>
        if c.has 'u' then .ok w
        else if c.has 'd' then newDirectory w (Octets.toText path)
        else w.write (Octets.toText path) []
      if made then Act.send 1 (path ++ ['\n'])

/-- Whether a mode lets a file be run; nothing if the mode does not tell. -/
def runs? (mode : Octets) : Option (Option Bool) :=
  if mode.isEmpty then none
  else if mode.all fun c => '0' ≤ c && c ≤ '7' then
    some (some ((mode.drop (mode.length - 3)).any fun c => c.toNat % 2 == 1))
  else
    let body := mode.dropWhile fun c => ['u', 'g', 'o', 'a'].contains c
    match body with
    | sign :: letters =>
      if ['+', '-', '='].contains sign && letters.all fun c =>
        ['r', 'w', 'x', 'X', 's', 't'].contains c then
        some (if letters.contains 'x' then some (sign != '-') else if sign == '=' then some false
          else none)
      else none
    | [] => none

def isMinusMode (argument : Octets) : Bool :=
  match argument with
  | '-' :: letters =>
    !letters.isEmpty && letters.all fun c => ['r', 'w', 'x', 'X', 's', 't'].contains c
  | _ => false

/-- Lets files be run, or keeps them from it. -/
def changeMode : Utility := fun name arguments =>
  let use (name : Octets) (c : Choices) : Act Unit := do
    match arguments.filter isMinusMode ++ c.operands with
    | [] => lack name
    | [mode] => refuse name ("missing operand after " ++ quoted mode)
    | mode :: paths =>
      match runs? mode with
      | none => refuse name ("invalid mode: " ++ quoted mode)
      | some change =>
        paths.forM fun path => do
          let w := (← get).workspace
          let text := Octets.toText path
          if (w.look? text).toOption.isSome && w.find? text matches .error .missing then
            complain name ("cannot operate on dangling symlink " ++ quoted path)
          else
            let _ ← tryTo name ("cannot access " ++ quoted path) fun w => do
              let place ← w.place? text
              let _ ← w.find? text
              .ok (change.elim w fun isRunnable => w.permit place isRunnable)
  let others := arguments.filter fun a => !isMinusMode a
  choosing ⟨"cfRv", "", [("recursive", 'R'), ("verbose", 'v')], false⟩ 1 use name others

def namesLinkedDirectory (w : Workspace) (path : String) : Bool :=
  match w.entry? path, w.look? path with
  | .ok place, .ok (_, .directory) => (w.node? place matches some (.link _))
  | _, _ => false

/-- Removes directories that hold nothing, up to the first that cannot be removed. -/
def removeEach (name : Octets) (isToldOf : Bool) (lead : String) : List Octets → Act Unit
  | [] => pure ()
  | path :: rest => do
    remark isToldOf (Octets.toText name ++ ": removing directory, " ++ quoted path)
    let text := Octets.toText path
    if namesLinkedDirectory (← get).workspace text then
      complain name (lead ++ quoted path ++ ": Symbolic link not followed")
    else
      let removed ← tryTo name (lead ++ quoted path) fun w => do
        match ← w.look? text with
        | (place, .directory) =>
          if (w.names place).isEmpty then .ok (w.remove place) else .error .notEmpty
        | _ => .error .notDirectory
      if removed then removeEach name isToldOf "failed to remove directory " rest

/-- Removes directories that hold nothing. -/
def removeDirectory : Utility :=
  choosing ⟨"pv", "", [("parents", 'p'), ("verbose", 'v')], false⟩ 1 fun name c => do
    if c.operands.isEmpty then lack name
    c.operands.forM fun path =>
      removeEach name (c.has 'v') "failed to remove "
        (if c.has 'p' then (stages path).reverse else [path])

/-- What is removed with a place, the deepest first, with the paths; at most so deep. -/
def insides (w : Workspace) : Nat → Octets → Place → List (Octets × Place)
  | 0, _, _ => []
  | depth + 1, path, place =>
    let inner (name : String) := Octets.ofText (Path.join (Octets.toText path) name)
    (w.names place).flatMap (fun name => insides w depth (inner name) (place ++ [name])) ++
      [(path, place)]

def removeVocabulary : Vocabulary :=
  ⟨"dfiIrRv", "", [("recursive", 'r'), ("force", 'f'), ("verbose", 'v'), ("dir", 'd')], false⟩

/-- Removes files, and directories if that is wanted. -/
def remove : Utility :=
  choosing removeVocabulary 1 fun name c => do
    let isForced := c.has 'f'
    let isDeep := c.has 'r' || c.has 'R'
    if c.operands.isEmpty && !isForced then lack name
    c.operands.forM fun path => do
      let s ← get
      let w := s.workspace
      let text := Octets.toText path
      let lead := "cannot remove " ++ quoted path
      let step := lastStep path
      match w.look? text with
      | .error e =>
        if isForced && (e == .missing || e == .notDirectory) then pure ()
        else complain name (lead ++ ": " ++ e.reason)
      | .ok (place, .directory) =>
        if !isDeep && !c.has 'd' then complain name (lead ++ ": " ++ FileError.isDirectory.reason)
        else if namesLinkedDirectory w text
          then complain name (lead ++ ": " ++ FileError.notDirectory.reason)
        else if step == ['.'] || step == ['.', '.'] then
          complain name ("refusing to remove '.' or '..' directory: skipping " ++ quoted path)
        else if !isDeep && !(w.names place).isEmpty
          then complain name (lead ++ ": " ++ FileError.notEmpty.reason)
        else do
          let removed := insides w (w.nodes.length + 1) path place
          set { s with workspace := w.remove place }
          removed.forM fun (path, place) =>
            remark (c.has 'v')
              ("removed " ++ (if w.node? place == some .directory then "directory " else "") ++
                quoted path)
      | .ok (place, _) => do
        set { s with workspace := w.remove place }
        remark (c.has 'v') ("removed " ++ quoted path)

def unlink : Utility := plain fun name operands => do
  match operands with
  | [] => lack name
  | [path] => do
    let _ ← tryTo name ("cannot unlink " ++ quoted path) fun w => do
      match ← w.look? (Octets.toText path) with
      | (_, .directory) => .error .isDirectory
      | (place, _) => .ok (w.remove place)
  | _ :: extra :: _ => refuse name ("extra operand " ++ quoted extra)

/-- Shows the input and writes it to files too. -/
def tee : Utility :=
  choosing ⟨"aip", "", [("append", 'a')], false⟩ 1 fun name c => do
    match ← load ['-'] with
    | .error reason => complain name ("read error: " ++ reason)
    | .ok text => do
      c.operands.forM fun path => do
        let before := (← get).unsent
        match ← save (c.has 'a') path text with
        | .ok () =>
          match (← get).unsent, before with
          | some e, none => do
            modify fun s => { s with unsent := none }
            complain name (shown path ++ ": " ++ e.reason)
          | _, _ => pure ()
        | .error e => complain name (shown path ++ ": " ++ e.reason)
      Act.send 1 text

def truncate : Utility :=
  choosing ⟨"co", "rs", [("size", 's'), ("no-create", 'c')], false⟩ 1 fun name c => do
    match c.value? 's' with
    | none => refuse name "you must specify either '--size' or '--reference'"
    | some size =>
      match size? size, c.operands with
      | _, [] => refuse name "missing file operand"
      | none, _ => complain name ("Invalid number: " ++ quoted size)
      | some size, paths =>
        paths.forM fun path => do
          let _ ← tryTo name ("cannot open " ++ quoted path ++ " for writing") fun w =>
            let text := Octets.toText path
            let old := (w.read text).toOption.getD []
            w.write text ((old ++ List.replicate (size - old.length) 0).take size)

end Turnery.Shell.Utility
