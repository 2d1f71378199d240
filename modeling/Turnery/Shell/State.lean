import Turnery.Shell.Command
import Turnery.Shell.Signal

/-!
# The state of the shell

What the shell knows while it runs a script, and what it has sent where. Time passes only while
something sleeps; what is sent carries its time, so that the outputs of commands that run side by
side can be put in order. A script that has a limit is ended when the limit is reached, what it has
started goes on and may hold its outputs open.
-/

namespace Turnery.Shell

open Turnery.Files

inductive Target where
  /-- An output of the program as a whole. -/
  | stream (number : Nat)
  | file (place : Place)
  | device (device : Device)
  /-- The text that a command of some level is to give. -/
  | capture (level : Nat)
  /-- A text that is read. Descriptors that lead to the same one share how far it has been read. -/
  | source (number : Nat)
  deriving DecidableEq, Repr

structure Emission where
  target : Target
  owner : Nat
  time : Nat
  text : Octets

/-- A target that something keeps open until a time. -/
structure Hold where
  owner : Nat
  target : Target
  finish : Nat

/-- When a process of its own ended, when it gave up the descriptors that it was started with, its
status, and the signal that ended it if one did. -/
structure Span where
  finish : Nat
  release : Nat
  status : Nat
  signal : Option Nat

/-- A command that runs in the background. The shell may have noticed its end, and it may have shown
it. -/
structure Job where
  number : Nat
  span : Span
  isNoticed : Bool
  isShown : Bool

/-- Where a text that is read comes from. A file can be read again from its start. -/
inductive Origin where
  | pipe
  | device
  | file (whole : Octets)

structure Source where
  rest : Octets
  origin : Origin

namespace Source

/-- The text of a file, of which nothing has been read. -/
def ofFile (text : Octets) : Source := ⟨text, .file text⟩

def ofPipe (text : Octets) : Source := ⟨text, .pipe⟩

def silent : Source := ⟨[], .device⟩

def isFile (source : Source) : Bool :=
  source.origin matches .file _

end Source

/-- What the shell knows of a variable besides its value: names of those that may not change, and of
those that programs are told of. -/
structure Marks where
  fixed : List Octets
  exported : List Octets

/-- How far the options among the arguments have been read: the number of the next argument, and how
many characters have been read of the one in front of it if some are left. -/
structure OptionPlace where
  index : Nat
  offset : Option Nat

/-- Why the next command does not run. -/
inductive Flow where
  | leave
  | killed (signal : Nat)
  /-- The limit is reached. -/
  | late
  | breaks (loops : Nat)
  | continues (loops : Nat)
  | returns
  deriving DecidableEq, Repr

structure State where
  workspace : Workspace
  /-- The path of the directory in which the shell works, with the links over which it was
  reached. -/
  directory : Octets
  /-- The number that the script takes for that of its process. -/
  number : Nat
  /-- The number of the process, which differs in processes that the script has started. -/
  process : Nat
  /-- The numbers of the shells that have started this one. -/
  parents : List Nat
  /-- When a utility took the place of the shell in the process. -/
  replacedAt : Option Nat
  /-- The name of the script, for complaints. -/
  name : Octets
  /-- The built-in command or the script in whose name complaints are made. -/
  speaker : Option Octets
  /-- The line that is being run. -/
  line : Nat
  arguments : List Octets
  bindings : List (Octets × Octets)
  marks : Marks
  aliases : List (Octets × Octets)
  functions : List (Octets × Command)
  /-- The variables that are local to the current function, with the values they had before. -/
  locals : List (Octets × Option Octets)
  /-- What is done when a signal arrives; nothing if the text is empty. Zero stands for the end of
  the script. -/
  traps : List (Nat × Octets)
  /-- The signals that have arrived, each with the number of the shell that it is for. -/
  pending : List (Nat × Nat)
  /-- The status of the latest command. -/
  status : Nat
  descriptors : List (Nat × Target)
  /-- The texts that are read. -/
  sources : List (Nat × Source)
  /-- What was sent, the latest first. -/
  emitted : List Emission
  holds : List Hold
  jobs : List Job
  /-- Milliseconds since the start. -/
  now : Nat
  limit : Option Nat
  /-- How many more commands can be run. -/
  effort : Nat
  /-- How deep the captures are nested. -/
  level : Nat
  /-- The names of the switches that are on. -/
  switches : List String
  optionPlace : OptionPlace
  inFunction : Bool
  /-- The process is a part of the one whose number the script knows. -/
  isPart : Bool
  /-- Why something could not be sent. -/
  unsent : Option FileError
  /-- The permissions that new files do not get. -/
  mask : Nat

/-- Something the shell does: it changes the state, and it may keep the next command from
running. -/
abbrev Act := ExceptT Flow (StateM State)

namespace State

def never : Nat := Nat.pow 10 15

def target? (s : State) (descriptor : Nat) : Option Target :=
  s.descriptors.lookup descriptor

def connect (s : State) (descriptor : Nat) (target : Target) : State :=
  { s with descriptors := (descriptor, target) :: s.descriptors.filter fun entry => entry.1 !=
    descriptor }

def disconnect (s : State) (descriptor : Nat) : State :=
  { s with descriptors := s.descriptors.filter fun entry => entry.1 != descriptor }

def freshSource (s : State) : Nat :=
  s.sources.foldl (fun n entry => max n entry.1) 0 + 1

def feed (s : State) (descriptor : Nat) (source : Source) : State :=
  let number := s.freshSource
  { s.connect descriptor (.source number) with sources := (number, source) :: s.sources }

def input (s : State) : Source :=
  match s.target? 0 with
  | some (.source number) => (s.sources.lookup number).getD .silent
  | _ => .silent

/-- The state after a text has been read up to a rest. -/
def leaveSource (s : State) (number : Nat) (rest : Octets) : State :=
  let origin := ((s.sources.lookup number).getD .silent).origin
  { s with sources := (number, ⟨rest, origin⟩) :: s.sources.filter fun entry => entry.1 != number }

/-- The state after the standard input has been read up to a rest. -/
def leaveInput (s : State) (rest : Octets) : State :=
  match s.target? 0 with
  | some (.source number) => s.leaveSource number rest
  | _ => s

def has (s : State) (switch : String) : Bool :=
  s.switches.contains switch

def sendTo (s : State) (target : Target) (text : Octets) : State :=
  if text.isEmpty then s
  else
    match target with
    | .device .full => { s with unsent := some .noSpace }
    | .device _ => s
    | .source _ => { s with unsent := some .closed }
    | target => { s with emitted := ⟨target, s.process, s.now, text⟩ :: s.emitted }

def send (s : State) (descriptor : Nat) (text : Octets) : State :=
  match s.target? descriptor with
  | some target => s.sendTo target text
  | none => if text.isEmpty then s else { s with unsent := some .closed }

def valueOf? (s : State) (name : Octets) : Option Octets :=
  s.bindings.lookup name

def assign (s : State) (name value : Octets) : State :=
  { s with bindings := (name, value) :: s.bindings.filter fun entry => entry.1 != name }

def unassign (s : State) (name : Octets) : State :=
  { s with bindings := s.bindings.filter fun entry => entry.1 != name }

/-- The state in which programs are told of a variable. -/
def publish (s : State) (name : Octets) : State :=
  if s.marks.exported.contains name then s
  else { s with marks := { s.marks with exported := name :: s.marks.exported } }

/-- The state in which programs are not told of a variable. -/
def conceal (s : State) (name : Octets) : State :=
  { s with marks := { s.marks with exported := s.marks.exported.filter fun other => other != name }
    }

/-- The state in which a variable may not change any more. -/
def fix (s : State) (name : Octets) : State :=
  { s with marks := { s.marks with fixed := name :: s.marks.fixed } }

/-- The state in which a variable has the value that it had, or none. -/
def restore (s : State) (name : Octets) (value : Option Octets) : State :=
  match value with
  | some value => s.assign name value
  | none => s.unassign name

/-- The text that was sent to a target, in the order of time. -/
def textFor (s : State) (target : Target) : Octets :=
  let sent := s.emitted.reverse.filter fun e => e.target == target
  (sent.mergeSort fun a b => a.time ≤ b.time).flatMap Emission.text

/-- The state in which what was sent to files is in them. -/
def settle (s : State) : State :=
  let isForFile (e : Emission) : Bool := match e.target with
    | .file _ => true
    | _ => false
  let (written, others) := s.emitted.partition isForFile
  let targets := (written.map Emission.target).eraseDups
  let workspace := targets.foldl (fun w target =>
    match target with
    | .file place => w.append place (Octets.toBytes (s.textFor target))
    | _ => w) s.workspace
  { s with workspace := workspace, emitted := others }

/-- The state after the shell has looked for jobs that are over. -/
def notice (s : State) : State :=
  { s with jobs := s.jobs.map fun job => if job.span.finish ≤ s.now
    then { job with isNoticed := true } else job }

/-- The state with the targets of all descriptors held until a time. -/
def hold (s : State) (owner finish : Nat) : State :=
  if finish ≤ s.now then s
  else { s with holds := (s.descriptors.map fun entry => ⟨owner, entry.2, finish⟩) ++ s.holds }

end State

namespace Act

/-- Does something and tells how it ended. -/
def attempt {α : Type} (act : Act α) : Act (Except Flow α) :=
  fun s => let (result, s) := act s; (.ok result, s)

def leave {α : Type} (status : Nat) : Act α := do
  modify fun s => { s with status := status % 256 }
  throw .leave

def setStatus (status : Nat) : Act Unit :=
  modify fun s => { s with status := status }

def send (descriptor : Nat) (text : Octets) : Act Unit :=
  modify fun s => s.send descriptor text

/-- Complains, with the name of the script, the line, and the name of what has complained. -/
def complain (message : String) : Act Unit := do
  let s ← get
  let speaker := s.speaker.elim [] fun name => name ++ [':', ' ']
  send 2 (s.name ++ Octets.ofText (": " ++ Number.natText s.line ++ ": ") ++ speaker ++
    Octets.ofText (message ++ "\n"))

def inNameOf (speaker : Octets) (act : Act Unit) : Act Unit := do
  let before ← get
  set { before with speaker := some speaker }
  let result ← attempt act
  modify fun s => { s with speaker := before.speaker }
  match result with
  | .ok () => pure ()
  | .error flow => throw flow

def fail {α : Type} (message : String) : Act α := do
  complain message
  leave 2

/-- The name of the variable that tells how far options have been read. -/
def optionIndexName : Octets := "OPTIND".toList

/-- Complains if a name is none of a variable that may change. -/
def checkName (name : Octets) : Act Unit := do
  let s ← get
  if !Word.isName name then fail (Octets.toText name ++ ": bad variable name")
  else if s.marks.fixed.contains name then fail (Octets.toText name ++ ": is read only")
  else pure ()

def assign (name value : Octets) : Act Unit := do
  checkName name
  modify fun s =>
    let s := s.assign name value
    let s := if s.has "allexport" then s.publish name else s
    if name == optionIndexName
      then { s with optionPlace := ⟨max 1 (Number.natOfDigits value), none⟩ } else s

/-- Lets time pass up to a moment, or up to the limit. -/
def waitUntil (moment : Nat) : Act Unit := do
  let s ← get
  match s.limit.filter (· < moment) with
  | some limit =>
    set { s with now := limit }
    throw .late
  | none => set { s with now := max s.now moment }

/-- Counts one more command. A script that runs too many runs until its limit. -/
def spend : Act Unit := do
  let s ← get
  match s.effort with
  | 0 =>
    set { s with now := s.limit.getD State.never }
    throw .late
  | effort + 1 => set { s with effort := effort }

/-- What a process of its own leaves: how it ended and its state. -/
def run (act : Act Unit) (s : State) : Except Flow Unit × State :=
  act s

/-- Does something in a process of its own. Only what it sends, reads and changes in the workspace
is kept. -/
def apart (act : Act Unit) : Act Span := do
  let s ← get
  let (result, child) := run act { s with
    limit := none
    jobs := []
    isPart := true
    pending := []
    replacedAt := none
    traps := s.traps.filter fun entry => entry.2.isEmpty }
  set { s with
    workspace := { child.workspace with home := s.workspace.home }
    sources := child.sources
    emitted := child.emitted
    holds := child.holds
    pending := s.pending ++ child.pending
    effort := child.effort
    status := child.status }
  let span : Span := ⟨child.now, child.replacedAt.getD child.now, child.status, none⟩
  match result with
  | .error (.killed signal) => do
    setStatus (128 + signal)
    pure { span with status := 128 + signal, signal := some signal }
  | _ => pure span

/-- Waits for the end of a process, and says so if a signal ended it. -/
def await (span : Span) : Act Unit := do
  waitUntil span.finish
  modify State.notice
  match span.signal with
  | some signal => send 2 (Signal.remark signal)
  | none => pure ()

/-- Does something in a process of its own and waits for it. -/
def within (act : Act Unit) : Act Unit := do
  let span ← apart act
  modify fun s => s.hold 0 span.release
  await span

/-- Does something in a process of its own whose output is captured. -/
def captured (act : Act Unit) : Act (Octets × Span) := do
  let s ← get
  let level := s.level + 1
  let target := Target.capture level
  set { s.connect 1 target with
    level := level
    emitted := [] }
  let result ← attempt (apart act)
  let t ← get
  set { t with
    level := s.level
    emitted := (t.emitted.filter fun (e : Emission) => e.target != target) ++ s.emitted
    descriptors := s.descriptors }
  match result with
  | .ok span => pure (t.textFor target, span)
  | .error flow => throw flow

end Act

end Turnery.Shell
