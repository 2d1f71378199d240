import Turnery.Files.Device
import Turnery.Files.Path
import Turnery.Number.Digits
import Turnery.Text.Utf8

/-!
# The workspace

The files and directories that the program works on, together with the other things that it asks its
surroundings for. Paths are followed step by step, and each step starts from a directory that
exists. A link on the way leads on to where its own path leads; a path can also be taken for the
link that it ends at. `read_write` says that what was written is what is read, unless a device took
it.
-/

namespace Turnery.Files

/-- Why a file operation fails. -/
inductive FileError where
  | missing
  | notDirectory
  | isDirectory
  | exists
  | notEmpty
  | notText
  /-- Links lead on to links without end. -/
  | loop
  | tooLong
  /-- A path holds a character that no path can hold. -/
  | nulCharacter
  /-- A device has no room. -/
  | noSpace
  /-- A device is not there. -/
  | noDevice
  /-- What is asked for is none of the things that can be done. -/
  | invalid
  /-- Nothing is open where it should be. -/
  | closed
  deriving DecidableEq, Repr

namespace FileError

def reason : FileError → String
  | missing => "No such file or directory"
  | notDirectory => "Not a directory"
  | isDirectory => "Is a directory"
  | .exists => "File exists"
  | notEmpty => "Directory not empty"
  | notText => "stream did not contain valid UTF-8"
  | loop => "Too many levels of symbolic links"
  | tooLong => "File name too long"
  | nulCharacter => "file name contained an unexpected NUL byte"
  | noSpace => "No space left on device"
  | noDevice => "No such device or address"
  | invalid => "Invalid argument"
  | closed => "Bad file descriptor"

/-- The number that the operating system has for the reason. -/
def number? : FileError → Option Nat
  | missing => some 2
  | notDirectory => some 20
  | isDirectory => some 21
  | .exists => some 17
  | notEmpty => some 39
  | notText => none
  | loop => some 40
  | tooLong => some 36
  | nulCharacter => none
  | noSpace => some 28
  | noDevice => some 6
  | invalid => some 22
  | closed => some 9

def message (e : FileError) : String :=
  e.reason ++
    (match e.number? with
      | some n => " (os error " ++ Number.natText n ++ ")"
      | none => "")

end FileError

inductive Node where
  | directory
  | file (content : List UInt8)
  /-- It leads to where a path leads from the directory that holds it. -/
  | link (path : String)
  | device (device : Device)
  deriving DecidableEq, Repr

/-- The surroundings of the program. -/
structure Workspace where
  /-- The directory from which relative paths start. -/
  home : Place
  /-- What exists besides what is always there; of two nodes at one place the first counts. -/
  nodes : List (Place × Node)
  /-- The environment variables. -/
  environment : List (String × String)
  /-- The directory of the program. -/
  programPlace : Option Place
  /-- The number of the next unique name. -/
  serial : Nat
  /-- The files that can be run. -/
  runnable : List Place

def Place.node? (place : Place) : Option Node :=
  if place.isEmpty || Place.standing.contains place then some .directory
  else (Device.ofPlace? place).map .device

/-- How many bytes a step of a path can have. -/
def stepLimit : Nat := 255

/-- How many bytes a path can have. -/
def pathLimit : Nat := 4095

/-- How many links a path can lead over. -/
def linkLimit : Nat := 40

/-- Where following a path stops: at its end, or at a link, where it goes on from a place by other
steps. -/
inductive Stop where
  | arrived (place : Place)
  | crossed (place : Place) (steps : List String)

namespace Workspace

/-- What is at a place. What has been put there counts before what is always there. -/
def node? (w : Workspace) (place : Place) : Option Node :=
  if place.isEmpty then some .directory else (w.nodes.lookup place).or place.node?

def put (w : Workspace) (place : Place) (node : Node) : Workspace :=
  { w with nodes := (place, node) :: w.nodes.filter fun entry => entry.1 != place }

theorem node?_put_self (w : Workspace) {place : Place} (node : Node) (h : place ≠ []) :
    (w.put place node).node? place = some node := by
  simp [node?, put, h]

def next (place : Place) (step : String) : Place :=
  if step == ".." then place.dropLast else if step == "." then place else place ++ [step]

/-- Follows steps from a place up to the first link; each starts from a directory. The last may lead
to where nothing is, and a link that it leads to may be taken for itself. -/
def walk (w : Workspace) (crossesLast : Bool) : Place → List String → Except FileError Stop
  | place, [] => .ok (.arrived place)
  | place, step :: rest =>
    match w.node? place with
    | none => .error .missing
    | some .directory =>
      if stepLimit < step.utf8ByteSize then .error .tooLong
      else
        match w.node? (next place step) with
        | some (.link path) =>
          if rest.isEmpty && !crossesLast then .ok (.arrived (next place step))
          else
            let finish := if rest.isEmpty && Path.namesDirectory path then ["."] else []
            .ok (.crossed (if Path.isAbsolute path then [] else place)
              (Path.steps path ++ rest ++ finish))
        | _ => walk w crossesLast (next place step) rest
    | some _ => .error .notDirectory

/-- Follows steps from a place over fewer than so many links. -/
def follow (w : Workspace) (crossesLast : Bool) : Nat → Place → List String → Except FileError Place
  | 0, _, _ => .error .loop
  | links + 1, place, steps =>
    match w.walk crossesLast place steps with
    | .error e => .error e
    | .ok (.arrived finish) => .ok finish
    | .ok (.crossed start others) => follow w crossesLast links start others

def origin (w : Workspace) (path : String) : Place :=
  if Path.isAbsolute path then [] else w.home

/-- The reason why a text is no path. -/
def fault? (path : String) : Option FileError :=
  if path == "" then some .missing
  else if path.contains '\x00' then some .nulCharacter
  else if pathLimit < path.utf8ByteSize then some .tooLong
  else none

/-- The place to which a path leads, or that it names if a link there is taken for itself. -/
def placeBy (w : Workspace) (crossesLast : Bool) (path : String) : Except FileError Place :=
  match fault? path with
  | some e => .error e
  | none => w.follow crossesLast (linkLimit + 1) (w.origin path) (Path.steps path)

def place? (w : Workspace) (path : String) : Except FileError Place :=
  w.placeBy true path

/-- The place that a path names. A link there is taken for itself. -/
def entry? (w : Workspace) (path : String) : Except FileError Place :=
  w.placeBy false path

/-- What a place holds for a path that leads to it: only a directory if the path names one. -/
def found (w : Workspace) (path : String) (place : Place) : Except FileError Node :=
  match w.node? place with
  | none => .error .missing
  | some .directory => .ok .directory
  | some node => if Path.namesDirectory path then .error .notDirectory else .ok node

def find? (w : Workspace) (path : String) : Except FileError Node := do
  w.found path (← w.place? path)

/-- The place that a path names with what is there. A link is taken for itself unless the path names
a directory. -/
def look? (w : Workspace) (path : String) : Except FileError (Place × Node) := do
  let place ← w.placeBy (Path.namesDirectory path) path
  let node ← w.found path place
  .ok (place, node)

def isFile (w : Workspace) (path : String) : Bool :=
  match w.find? path with
  | .ok (.file _) => true
  | _ => false

def isDirectory (w : Workspace) (path : String) : Bool :=
  match w.find? path with
  | .ok .directory => true
  | _ => false

def contains (w : Workspace) (path : String) : Bool :=
  (w.find? path).toOption.isSome

/-- The bytes of a file. Devices have none, as far as anybody waits for them. -/
def read (w : Workspace) (path : String) : Except FileError (List UInt8) := do
  match ← w.find? path with
  | .directory => .error .isDirectory
  | .file content => .ok content
  | .link _ => .error .loop
  | .device .terminal => .error .noDevice
  | .device _ => .ok []

/-- The text of a file; it must be well formed. -/
def readText (w : Workspace) (path : String) : Except FileError String := do
  match Text.Utf8.decode? (← w.read path) with
  | none => .error .notText
  | some text => .ok (String.ofList text)

/-- The workspace after bytes have been written to a file, which is made if its directory exists. -/
def write (w : Workspace) (path : String) (content : List UInt8) : Except FileError Workspace := do
  let place ← w.place? path
  match w.node? place with
  | some .directory => .error .isDirectory
  | some (.file _) =>
    if Path.namesDirectory path then .error .notDirectory else .ok (w.put place (.file content))
  | some (.link _) => .error .loop
  | some (.device .full) => if content.isEmpty then .ok w else .error .noSpace
  | some (.device .terminal) => .error .noDevice
  | some (.device _) => if Path.namesDirectory path then .error .notDirectory else .ok w
  | none =>
    if Path.namesDirectory path then .error .isDirectory else .ok (w.put place (.file content))

/-- The workspace after a text has been written to a file. -/
def writeText (w : Workspace) (path text : String) : Except FileError Workspace :=
  w.write path (Text.Utf8.encode text.toList)

/-- Follows steps from a place and makes the directories that are missing. -/
def followMaking (w : Workspace) : Place → List String → Except FileError Workspace
  | _, [] => .ok w
  | place, step :: rest =>
    if stepLimit < step.utf8ByteSize then .error .tooLong
    else
      match w.node? (next place step) with
      | none => followMaking (w.put (next place step) .directory) (next place step) rest
      | some .directory => followMaking w (next place step) rest
      | some _ =>
        let isLast := rest.isEmpty
        match w.follow true (linkLimit + 1) place [step] with
        | .error e => .error (if isLast then .exists else e)
        | .ok finish =>
          if w.node? finish == some .directory then followMaking w finish rest
          else .error (if isLast then .exists else .notDirectory)

/-- The workspace with a directory and all directories on the way to it. -/
def makeDirectories (w : Workspace) (path : String) : Except FileError Workspace :=
  if path.contains '\x00' then .error .nulCharacter
  else w.followMaking (w.origin path) (Path.steps path)

/-- The workspace with the directory made in which a path lies. -/
def makeParent (w : Workspace) (path : String) : Except FileError Workspace :=
  let steps := (Path.steps path).dropLast
  if steps.any fun step => step.contains '\x00' then .error .nulCharacter
  else w.followMaking (w.origin path) steps

/-- The workspace with bytes added at the end of the file at a place. -/
def append (w : Workspace) (place : Place) (content : List UInt8) : Workspace :=
  match w.node? place with
  | some (.file old) => w.put place (.file (old ++ content))
  | _ => w.put place (.file content)

/-- The workspace without what is at a place and beneath. -/
def remove (w : Workspace) (place : Place) : Workspace :=
  { w with
    nodes := w.nodes.filter fun entry => !place.isPrefixOf entry.1
    runnable := w.runnable.filter fun other => !place.isPrefixOf other }

/-- The workspace in which a file can be run, or cannot. -/
def permit (w : Workspace) (place : Place) (isRunnable : Bool) : Workspace :=
  let others := w.runnable.filter (· != place)
  { w with runnable := if isRunnable then place :: others else others }

/-- The names of what a directory holds, in order. -/
def names (w : Workspace) (place : Place) : List String :=
  let standing := if place == ["dev"] then Device.named.map Prod.fst else []
  let places := w.nodes.map Prod.fst ++ Place.standing
  let inside := places.filter fun other => !other.isEmpty && other.dropLast == place
  ((inside.filterMap List.getLast? ++ standing).eraseDups).mergeSort fun a b => decide (a ≤ b)

def valueOf? (w : Workspace) (name : String) : Option String :=
  w.environment.lookup name

theorem node?_put_of_ne (w : Workspace) {place other : Place} (node : Node) (h : other ≠ place) :
    (w.put place node).node? other = w.node? other := by
  have hb : (other == place) = false := beq_eq_false_iff_ne.2 h
  have key : (w.nodes.filter fun entry => entry.1 != place).lookup other =
      w.nodes.lookup other := by
    induction w.nodes with
    | nil => rfl
    | cons entry rest ih =>
      obtain ⟨key, value⟩ := entry
      by_cases hk : key = place
      · subst hk
        simp [List.lookup_cons, hb, ih]
      · simp only [List.filter_cons, bne_iff_ne, ne_eq, hk, not_false_iff, if_true,
          List.lookup_cons, ih]
  simp only [node?, put, List.lookup_cons, hb, key]

/-- What bytes can be put in place of: nothing, or a file. -/
def IsWritable (w : Workspace) (place : Place) : Prop :=
  w.node? place = none ∨ ∃ old, w.node? place = some (.file old)

/-- Steps that stop somewhere stop there after a file has been put where bytes can be put. -/
theorem walk_put {w : Workspace} {place : Place} {content : List UInt8} (h : w.IsWritable place)
    {crosses : Bool} {start : Place} {steps : List String} {stop : Stop}
    (ok : w.walk crosses start steps = .ok stop) :
    (w.put place (.file content)).walk crosses start steps = .ok stop := by
  have hroot : place ≠ [] := by
    rintro rfl
    rcases h with h | ⟨old, h⟩ <;> simp [node?] at h
  induction steps generalizing start with
  | nil => exact ok
  | cons step rest ih =>
    simp only [walk] at ok ⊢
    split at ok
    · cases ok
    · rename_i hdir
      have hne : start ≠ place := by
        rintro rfl
        rcases h with h | ⟨old, h⟩ <;> rw [h] at hdir <;> cases hdir
      rw [node?_put_of_ne w _ hne, hdir]
      simp only
      split at ok
      · cases ok
      · rename_i hshort
        rw [if_neg hshort]
        by_cases hnext : next start step = place
        · have hlink : ∀ path, w.node? (next start step) ≠ some (.link path) := by
            intro path heq
            rw [hnext] at heq
            rcases h with h | ⟨old, h⟩ <;> rw [h] at heq <;> cases heq
          have hself : (w.put place (.file content)).node? (next start step) =
              some (.file content) := by
            rw [hnext]
            exact node?_put_self w _ hroot
          rw [hself]
          split at ok
          · rename_i path heq
            exact absurd heq (hlink path)
          · exact ih ok
        · rw [node?_put_of_ne w _ hnext]
          generalize w.node? (next start step) = node at ok ⊢
          rcases node with _ | _ | old | path | device
          · exact ih ok
          · exact ih ok
          · exact ih ok
          · exact ok
          · exact ih ok
    · cases ok

/-- A path leads to where it led after a file has been put where bytes can be put. -/
theorem follow_put {w : Workspace} {place : Place} {content : List UInt8} (h : w.IsWritable place)
    {crosses : Bool} {links : Nat} {start finish : Place} {steps : List String}
    (ok : w.follow crosses links start steps = .ok finish) :
    (w.put place (.file content)).follow crosses links start steps = .ok finish := by
  induction links generalizing start steps with
  | zero => cases ok
  | succ links ih =>
    simp only [follow] at ok ⊢
    split at ok
    · cases ok
    · rename_i arrived hw
      rw [walk_put h hw]
      exact ok
    · rename_i other others hw
      rw [walk_put h hw]
      exact ih ok

theorem placeBy_put {w : Workspace} {place : Place} {content : List UInt8} (h : w.IsWritable place)
    {crosses : Bool} {path : String} {finish : Place} (ok : w.placeBy crosses path = .ok finish) :
    (w.put place (.file content)).placeBy crosses path = .ok finish := by
  unfold placeBy at ok ⊢
  split at ok
  · cases ok
  · rename_i hpath
    exact follow_put h ok

/-- A file that holds the bytes of a text is read as the text. -/
theorem readText_of_find? {w : Workspace} {path text : String}
    (h : w.find? path = .ok (.file (Text.Utf8.encode text.toList))) :
    w.readText path = .ok text := by
  have hread : w.read path = .ok (Text.Utf8.encode text.toList) := by
    rw [read, h]
    rfl
  rw [readText, hread]
  simp [Text.Utf8.decode?_encode, bind, Except.bind]

/-- What has been written to a file is read from it; a device keeps nothing. -/
theorem read_write {w w' : Workspace} {path : String} {content : List UInt8}
    (h : w.write path content = .ok w') :
    w'.read path = .ok content ∨ (w' = w ∧ ∃ place device,
      w.node? place = some (.device device)) := by
  unfold write at h
  cases hp : w.place? path with
  | error e => rw [hp] at h; cases h
  | ok place =>
    rw [hp] at h
    have key : (w.IsWritable place ∧ Path.namesDirectory path = false ∧
        w' = w.put place (.file content)) ∨
        (w' = w ∧ ∃ place device, w.node? place = some (.device device)) := by
      simp only [bind, Except.bind] at h
      split at h
      · cases h
      · rename_i old hn
        split at h
        · cases h
        · rename_i hd
          cases h
          exact .inl ⟨.inr ⟨old, hn⟩, by simpa using hd, rfl⟩
      · cases h
      · rename_i hn
        split at h
        · cases h
          exact .inr ⟨rfl, place, _, hn⟩
        · cases h
      · cases h
      · rename_i device _ _ hn
        split at h
        · cases h
        · cases h
          exact .inr ⟨rfl, place, device, hn⟩
      · rename_i hn
        split at h
        · cases h
        · rename_i hd
          cases h
          exact .inl ⟨.inl hn, by simpa using hd, rfl⟩
    rcases key with ⟨hw, hd, rfl⟩ | hdevice
    · have hroot : place ≠ [] := by
        rintro rfl
        rcases hw with h | ⟨old, h⟩ <;> simp [node?] at h
      have hplace : (w.put place (.file content)).place? path = .ok place := placeBy_put hw hp
      exact .inl (by simp [read, find?, found, hplace, bind, Except.bind,
        node?_put_self w _ hroot, hd])
    · exact .inr hdevice

end Workspace

end Turnery.Files
