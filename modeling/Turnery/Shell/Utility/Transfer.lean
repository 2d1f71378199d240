import Turnery.Shell.Utility.Filing

/-!
# Copying, moving and linking files

What brings files to other places: copies of them, the files themselves, or links that lead to them.
A link that is copied or moved is taken for itself or for what it leads to, as the manner says.
-/

namespace Turnery.Shell.Utility

open Turnery.Files

namespace Transfer

/-- How files are brought to another place. -/
structure Manner where
  moves : Bool
  isDeep : Bool
  /-- Links among the operands are taken for what they lead to. -/
  crossesOuter : Bool
  /-- Links inside directories are taken for what they lead to. -/
  crossesInner : Bool
  keepsOld : Bool
  isTold : Bool

/-- What a place holds, with the place to which it leads if it is a link that is crossed. -/
def held (w : Workspace) (crosses : Bool) (place : Place) : Place × Option Node :=
  let finish := if crosses then
      ((w.follow true (linkLimit + 1) place.dropLast place.getLast?.toList).toOption).getD place
    else place
  (finish, w.node? finish)

/-- What is at a place and beneath, at most so deep, with the steps that lead there and whether it
can be run. -/
def content (w : Workspace) (crosses : Bool) : Nat → Place → List (List String × Node × Bool)
  | 0, _ => []
  | depth + 1, place =>
    match held w crosses place with
    | (finish, some node) =>
      ([], node, w.runnable.contains finish) :: (w.names finish).flatMap fun name =>
        (content w crosses depth (finish ++ [name])).map fun (steps, rest) => (name :: steps, rest)
    | (_, none) => []

def copied (w : Workspace) (crosses : Bool) (source target : Place) : Workspace :=
  (content w crosses (w.nodes.length + 1) source).foldl (fun w (steps, node, isRunnable) =>
    let place := target ++ steps
    let keeps := (w.node? place).isSome
    let w := w.put place node
    if keeps then w else w.permit place isRunnable) w

/-- Copies the bytes of a file or a device. -/
def pour (name source target : Octets) (place : Place) : Act Unit := do
  let w := (← get).workspace
  let isNew := (w.find? (Octets.toText target)).toOption.isNone
  match ← load source with
  | .error reason => complain name ("cannot open " ++ quoted source ++ " for reading: " ++ reason)
  | .ok text =>
    match ← save false target text with
    | .error e => complain name ("cannot create regular file " ++ quoted target ++ ": " ++ e.reason)
    | .ok () =>
      match w.place? (Octets.toText target) with
      | .ok goal => if isNew then modify fun s =>
          { s with workspace := s.workspace.permit goal (w.runnable.contains place) }
      | .error _ => pure ()

/-- Why what a place holds cannot be brought to a goal, if it cannot be. -/
def objection? (w : Workspace) (m : Manner) (source target : Octets) (place goal : Place)
    (node : Node) :
    Option String :=
  let isDirectory := node == .directory
  let old := w.node? goal
  let failed (reason : String) : String :=
    if m.moves then "cannot move " ++ quoted source ++ " to " ++ quoted target ++ ": " ++ reason
    else "cannot create " ++ (if isDirectory then "directory " else "regular file ") ++
      quoted target ++ ": " ++ reason
  let targetText := Octets.toText target
  let isSame := goal == place ||
    ((node matches .link _) && (w.place? (Octets.toText source)).toOption == some goal)
  if isSame then some (quoted source ++ " and " ++ quoted target ++ " are the same file")
  else if isDirectory && place.isPrefixOf goal then
    some (if m.moves then "cannot move " ++ quoted source ++ " to a subdirectory of itself, " ++
      quoted target
      else "cannot copy a directory, " ++ quoted source ++ ", into itself, " ++ quoted target)
  else if isDirectory && old.isSome && old != some .directory then
    some ("cannot overwrite non-directory " ++ quoted target ++ " with directory " ++ quoted source)
  else if !isDirectory && old == some .directory then
    some ("cannot overwrite directory " ++ quoted target ++ " with non-directory")
  else if !isDirectory && old.isNone && Path.namesDirectory targetText
    then some (failed FileError.notDirectory.reason)
  else if m.moves && isDirectory && old == some .directory && !(w.names goal).isEmpty then
    some (failed FileError.notEmpty.reason)
  else none

/-- Brings what a path leads to to a place that another path names. -/
def bring (name : Octets) (m : Manner) (source target : Octets) : Act Unit := do
  let s ← get
  let w := s.workspace
  let sourceText := Octets.toText source
  let targetText := Octets.toText target
  let found := do
    if m.crossesOuter then
      let node ← w.find? sourceText
      let place ← w.place? sourceText
      .ok (place, node)
    else w.look? sourceText
  match found with
  | .error e => complain name ("cannot stat " ++ quoted source ++ ": " ++ e.reason)
  | .ok (place, node) =>
    let isDirectory := node == .directory
    let isPoured := !m.moves && !isDirectory && !(node matches .link _)
    let failed (e : FileError) : Act Unit :=
      complain name
        ((if m.moves then "cannot move " ++ quoted source ++ " to " ++ quoted target
          else "cannot create " ++ (if isDirectory then "directory " else "regular file ") ++
            quoted target) ++ ": " ++ e.reason)
    let isDangling := isPoured && (w.find? targetText matches .error .missing) &&
      (w.look? targetText matches .ok (_, .link _))
    if isDirectory && !m.moves && !m.isDeep then
      complain name ("-r not specified; omitting directory " ++ quoted source)
    else if isDangling then complain name ("not writing through dangling symlink " ++ quoted target)
    else if m.moves && namesLinkedDirectory w sourceText then failed .notDirectory
    else
      match if isPoured || isDirectory && !m.moves then w.place? targetText
        else w.entry? targetText with
      | .error .notDirectory =>
        complain name ("cannot stat " ++ quoted target ++ ": " ++ FileError.notDirectory.reason)
      | .error e => failed e
      | .ok goal =>
        match objection? w m source target place goal node with
        | some message => complain name message
        | none =>
          if m.keepsOld && (w.node? goal).isSome then
            if m.moves then complain name ("not replacing " ++ quoted target) else pure ()
          else do
            if isPoured then pour name source target place
            else
              let w := copied w (!m.moves && m.crossesInner) place goal
              let w :=
                if m.moves then (w.remove place).permit goal (s.workspace.runnable.contains place)
                else w
              set { s with workspace := w }
            remark m.isTold ((if m.moves then "renamed " else "") ++ quoted source ++ " -> " ++
              quoted target)

/-- The path inside a directory that has the last step of another path. -/
def inside (directory source : Octets) : Octets :=
  let step := lastStep source
  if step == ['.', '.'] then directory
  else Octets.ofText (Path.join (Octets.toText directory) (Octets.toText step))

/-- Does something with each source and its target: the last operand, or a path inside it if it is a
directory. -/
def eachTarget (name : Octets) (isExact : Bool) (directory : Option Octets) (operands : List Octets)
    (act : Octets → Octets → Act Unit) : Act Unit := do
  match directory, operands, operands.getLast? with
  | some directory, sources, _ =>
    match ← node? directory with
    | .ok .directory => sources.forM fun source => act source (inside directory source)
    | .ok _ =>
      complain name ("target directory " ++ quoted directory ++ ": " ++
        FileError.notDirectory.reason)
    | .error e => complain name ("target directory " ++ quoted directory ++ ": " ++ e.reason)
  | none, [], _ | none, _, none => refuse name "missing file operand"
  | none, [source], _ => refuse name ("missing destination file operand after " ++ quoted source)
  | none, sources, some target =>
    match isExact, ← node? target with
    | false, .ok .directory => sources.dropLast.forM fun source => act source (inside target source)
    | _, found =>
      match isExact, sources with
      | _, [source, _] => act source target
      | true, _ :: _ :: extra :: _ => refuse name ("extra operand " ++ quoted extra)
      | _, _ =>
        complain name ("target " ++ quoted target ++ ": " ++
          (match found with
            | .error e => e.reason
            | .ok _ => FileError.notDirectory.reason))

/-- The options of what brings files to another place. -/
def vocabulary (flags : String) : Vocabulary where
  flags := flags
  valued := "St"
  words :=
    [("recursive", 'r'), ("archive", 'a'), ("force", 'f'), ("no-clobber", 'n'), ("verbose", 'v'),
      ("target-directory", 't'), ("no-target-directory", 'T'), ("no-dereference", 'P'),
      ("dereference", 'L'), ("symbolic", 's'), ("relative", 'r'), ("interactive", 'i'),
      ("update", 'u')]
  isOrdered := false

end Transfer

/-- Copies files, and directories if that is wanted. -/
def copy : Utility :=
  choosing (Transfer.vocabulary "abdfHilLnpPrRsTuvxZ") 1 fun name c =>
    let isDeep := c.has 'r' || c.has 'R' || c.has 'a'
    let (outer, inner) := match c.last? "adHLP" with
      | some 'L' => (true, true)
      | some 'H' => (true, false)
      | some _ => (false, false)
      | none => (!isDeep, !isDeep)
    Transfer.eachTarget name (c.has 'T') (c.value? 't') c.operands
      (Transfer.bring name ⟨false, isDeep, outer, inner, c.has 'n', c.has 'v'⟩)

def move : Utility :=
  choosing (Transfer.vocabulary "bfinTuvZ") 1 fun name c =>
    Transfer.eachTarget name (c.has 'T') (c.value? 't') c.operands
      (Transfer.bring name ⟨true, true, false, false, c.last? "fin" == some 'n', c.has 'v'⟩)

namespace Linking

structure Manner where
  isSymbolic : Bool
  isForced : Bool
  isRelative : Bool
  isTold : Bool

def relativePath (directory place : Place) : String :=
  let shared := ((directory.zip place).takeWhile fun (a, b) => a == b).length
  let steps := List.replicate (directory.length - shared) ".." ++ place.drop shared
  if steps.isEmpty then "." else "/".intercalate steps

/-- What a new link consists of: a path, or what another path names. -/
def body (w : Workspace) (m : Manner) (source : String) (goal : Place) : Except FileError Node :=
  if !m.isSymbolic then (w.look? source).map Prod.snd
  else if source == "" then .error .missing
  else if m.isRelative then .ok (.link (relativePath goal.dropLast (furthestPlace w source)))
  else .ok (.link source)

def linked (w : Workspace) (m : Manner) (source target : String) : Except FileError Workspace := do
  let goal ← w.entry? target
  let node ← body w m source goal
  if (w.node? goal).isNone && Path.namesDirectory target then .error .missing
  else if (w.node? goal).isSome && !m.isForced then .error .exists
  else
    let isRunnable := match w.entry? source with
      | .ok place => !m.isSymbolic && w.runnable.contains place
      | .error _ => false
    .ok ((w.put goal node).permit goal isRunnable)

/-- Makes a link that leads to a path, or a second name for what the path names. -/
def make (name : Octets) (m : Manner) (source target : Octets) : Act Unit := do
  let w := (← get).workspace
  let sourceText := Octets.toText source
  let targetText := Octets.toText target
  let isSame := match w.entry? sourceText, w.entry? targetText with
    | .ok a, .ok b => a == b && (w.node? a).isSome
    | _, _ => false
  match if m.isSymbolic then none else some (w.look? sourceText) with
  | some (.error e) => complain name ("failed to access " ++ quoted source ++ ": " ++ e.reason)
  | some (.ok (_, .directory)) =>
    complain name (Octets.toText source ++ ": hard link not allowed for directory")
  | _ =>
    if m.isForced && isSame then
      complain name (quoted source ++ " and " ++ quoted target ++ " are the same file")
    else if m.isForced && (w.entry? targetText).toOption.any
      (fun goal => w.node? goal == some .directory) then
      complain name (Octets.toText target ++ ": cannot overwrite directory")
    else
      let noun := if m.isSymbolic then "symbolic link " else "hard link "
      match linked w m sourceText targetText with
      | .error e =>
        let isFull := if m.isSymbolic then source.isEmpty else e != .exists
        let tail :=
          if isFull then (if m.isSymbolic then " -> " else " => ") ++ quoted source else ""
        complain name ("failed to create " ++ noun ++ quoted target ++ tail ++ ": " ++ e.reason)
      | .ok w => do
        modify fun s => { s with workspace := w }
        remark m.isTold (quoted target ++ (if m.isSymbolic then " -> " else " => ") ++
          quoted source)

def vocabulary : Vocabulary where
  flags := "bdfFiLnPrsTv"
  valued := "St"
  words :=
    [("symbolic", 's'), ("force", 'f'), ("no-dereference", 'n'), ("relative", 'r'),
      ("verbose", 'v'), ("target-directory", 't'), ("no-target-directory", 'T'), ("logical", 'L'),
      ("physical", 'P')]
  isOrdered := false

end Linking

/-- Makes links. One operand alone is linked to from the directory in which the script works. -/
def link : Utility :=
  choosing Linking.vocabulary 1 fun name c => do
    let m : Linking.Manner := ⟨c.has 's', c.has 'f', c.has 'r', c.has 'v'⟩
    let w := (← get).workspace
    if m.isRelative && !m.isSymbolic then
      complain name "cannot do --relative without --symbolic"
      return
    let isLinkKept := match c.operands.getLast? with
      | some target => c.has 'n' && (w.look? (Octets.toText target) matches .ok (_, .link _))
      | none => false
    match c.operands, c.value? 't' with
    | [source], none => Linking.make name m source (Transfer.inside ['.'] source)
    | operands, directory =>
      Transfer.eachTarget name (c.has 'T' || isLinkKept) directory operands (Linking.make name m)

/-- Gives a file a second name. -/
def linkOne : Utility := plain fun name operands => do
  match operands with
  | [] => lack name
  | [path] => refuse name ("missing operand after " ++ quoted path)
  | [source, target] => do
    let w := (← get).workspace
    match Linking.linked w ⟨false, false, false, false⟩ (Octets.toText source)
      (Octets.toText target) with
    | .ok w => modify fun s => { s with workspace := w }
    | .error e =>
      complain name ("cannot create link " ++ quoted target ++ " to " ++ quoted source ++ ": " ++
        e.reason)
  | _ :: _ :: extra :: _ => refuse name ("extra operand " ++ quoted extra)

end Turnery.Shell.Utility
