import Turnery.Shell.Option

/-!
# Jobs and signals

The built-in commands that deal with other processes: they wait for commands in the background, show
them, send signals and say what is to be done when signals arrive.
-/

namespace Turnery.Shell

open Turnery.Files

namespace Job

/-- The signal does not end the job. Jobs are kept from being interrupted. -/
def withstands (s : State) (signal : Nat) : Bool :=
  !Signal.ends signal || signal == 2 || signal == 3 || s.traps.lookup signal == some []

/-- The state in which a signal has ended a job: what it sent later, it has not sent. -/
def killed (s : State) (number signal : Nat) : State :=
  let ended (job : Job) : Job :=
    { job with span := { job.span with
        finish := s.now
        status := 128 + signal
        signal := some signal } }
  { s with
    holds := s.holds.filter fun h => h.owner != number
    emitted := s.emitted.filter fun e => e.owner != number || e.time < s.now
    jobs := s.jobs.map fun job => if job.number == number then ended job else job }

/-- The job that a text names by a number behind a percent sign, counted from the first. -/
def ofPlace? (s : State) (text : Octets) : Option Job :=
  let digits := text.drop 1
  if ["%%", "%+", "%"].contains (Octets.toText text) then s.jobs.head?
  else if digits.isEmpty || !digits.all Char.isDigit || Number.natOfDigits digits == 0 then none
  else s.jobs.reverse[Number.natOfDigits digits - 1]?

/-- The job that a text names by its place or by the number of its process. -/
def named? (text : Octets) : Act (Option Job) := do
  let s ← get
  if text.head? == some '%' then
    match ofPlace? s text with
    | some job => pure (some job)
    | none => Act.fail ("No such job: " ++ Octets.toText text)
  else do
    let n ← Builtin.number text
    pure (s.jobs.find? fun job => job.number == n && !job.isShown)

/-- Waits for a job; a shell that has not noticed its end says what has ended it. -/
def await (job : Job) : Act Unit := do
  Act.waitUntil job.span.finish
  if !job.isNoticed then job.span.signal.forM fun signal => Act.send 2 (Signal.remark signal)
  modify State.notice

/-- What is said of how a job is getting on. -/
def condition (now : Nat) (job : Job) : String :=
  if now < job.span.finish then "Running"
  else
    match job.span.signal with
    | some signal => (Octets.toText (Signal.remark signal).dropLast)
    | none =>
      if job.span.status == 0 then "Done" else "Done(" ++ Number.natText job.span.status ++ ")"

end Job

namespace Builtin

/-- Waits for commands in the background, for all of them if none is named. -/
def wait (arguments : List Octets) : Act Unit := do
  let (_, operands) ← options "" arguments
  if operands.isEmpty then do
    let s ← get
    Act.setStatus 0
    Act.waitUntil (s.jobs.foldl (fun latest job => max latest job.span.finish) s.now)
    modify State.notice
  else do
    let statuses ← operands.mapM fun operand => do
      match ← Job.named? operand with
      | some job => do
        Act.setStatus job.span.status
        Job.await job
        pure (some job.span.status)
      | none => pure none
    Act.setStatus ((statuses.filterMap id).getLast?.getD 127)

/-- Shows the commands in the background, the latest first. -/
def showJobs (arguments : List Octets) : Act Unit := do
  let (letters, _) ← options "lp" arguments
  let s ← get
  let count := s.jobs.length
  let shown := s.jobs.zipIdx.filter fun (job, _) => !job.isShown
  shown.forM fun (job, n) => do
    let sign := if n == 0 then "+" else if n == 1 then "-" else " "
    let process := if letters.contains 'l' then Number.natText job.number ++ " " else ""
    let text :=
      "[" ++ Number.natText (count - n) ++ "] " ++ sign ++ " " ++ process ++ Job.condition s.now job
    let line := if letters.contains 'p' then Number.natText job.number
      else text ++ String.ofList (List.replicate (33 - text.length) ' ')
    Act.send 1 (Octets.ofText (line ++ "\n"))
  modify fun s =>
    { s.notice with jobs := s.notice.jobs.map fun job =>
      { job with isShown := job.span.finish ≤ s.now } }
  Act.setStatus 0

/-- Brings no command from the background back, since none is controlled. -/
def resume (arguments : List Octets) : Act Unit := do
  let s ← get
  match arguments.head?, s.jobs with
  | none, [] => Act.fail "No current job"
  | none, _ => Act.fail "job (null) not created under job control"
  | some name, _ => do
    let _ ← Job.named? name
    Act.fail ("job " ++ Octets.toText name ++ " not created under job control")

def noProcess : Act Unit := do
  Act.complain "No such process\n"
  Act.setStatus 1

def signalTo (signal : Nat) (process : Octets) : Act Unit := do
  match process with
  | '%' :: _ => do
    let _ ← Job.named? process
    noProcess
  | '-' :: digits => do
    let _ ← number digits
    noProcess
  | digits => do
    let n ← number digits
    let s ← get
    if n == s.number || s.parents.contains n then
      if signal != 0 && !s.pending.contains (n, signal) then
        set { s with pending := s.pending ++ [(n, signal)] }
    else
      match s.jobs.find? fun job => job.number == n && !job.isNoticed with
      | some job =>
        if s.now < job.span.finish && !Job.withstands s signal then set (Job.killed s n signal)
      | none => noProcess

/-- Shows the names of signals: of all, or of one that is given as a number or a status. -/
def listSignals (arguments : List Octets) : Act Unit := do
  match arguments with
  | [] => (List.range (Signal.last + 1)).forM fun n =>
      Act.send 1 (Octets.ofText ((if n == 0 then "0" else Signal.name n) ++ "\n"))
  | text :: _ => do
    let n ← number text
    let signal := if 128 < n then n - 128 else n
    if 0 < signal && signal ≤ Signal.last then
      Act.send 1 (Octets.ofText (Signal.name signal ++ "\n"))
    else Act.fail ("invalid signal number or exit status: " ++ Octets.toText text)

structure Request where
  isList : Bool
  signal : Option Nat
  operands : List Octets

/-- Reads options: `l` asks for a list, and `s` has a signal as its value. -/
def readRequest (request : Request) : Nat → List Octets → Act Request
  | 0, _ => pure request
  | more + 1, arguments =>
    match arguments with
    | ['-', '-'] :: rest => pure { request with operands := rest }
    | ('-' :: 'l' :: letters) :: rest =>
      readRequest { request with isList := true } more
        (if letters.isEmpty then rest else ('-' :: letters) :: rest)
    | ('-' :: 's' :: name) :: rest =>
      match name, rest with
      | [], [] => Act.fail "No arg for -s option"
      | name, rest =>
        let (name, rest) := if name.isEmpty then (rest.headD [], rest.drop 1) else (name, rest)
        match Signal.ofText? 1 name with
        | some signal => readRequest { request with signal := some signal } more rest
        | none => Act.fail ("invalid signal number or name: " ++ Octets.toText name)
    | ('-' :: c :: _) :: _ => Act.fail ("Illegal option -" ++ String.singleton c)
    | rest => pure { request with operands := rest }

def killUse : String :=
  "Usage: kill [-s sigspec | -signum | -sigspec] [pid | job]... or\nkill -l [exitstatus]"

/-- Sends signals to processes, or shows the names of signals. -/
def kill (arguments : List Octets) : Act Unit := do
  Act.setStatus 0
  let bare : Request := ⟨false, none, arguments⟩
  let request ← match arguments with
    | ('-' :: name) :: rest =>
      match Signal.ofText? 1 name with
      | some signal => pure { bare with signal := some signal, operands := rest }
      | none => readRequest bare ((arguments.map fun a => a.length + 1).foldl (· + ·) 0) arguments
    | _ => pure bare
  match request.isList, request.signal with
  | true, none => listSignals request.operands
  | true, some _ => if request.operands.isEmpty then listSignals [] else Act.fail killUse
  | false, signal =>
    if request.operands.isEmpty then Act.fail killUse
    else request.operands.forM (signalTo (signal.getD Signal.termination))

/-- Shows what is done when signals arrive. -/
def showTraps : Act Unit := do
  let sorted := (← get).traps.mergeSort fun a b => decide (a.1 ≤ b.1)
  sorted.forM fun (signal, action) =>
    Act.send 1 (Octets.ofText "trap -- " ++ Octets.singleQuoted action ++
      Octets.ofText (" " ++ Signal.name signal ++ "\n"))

/-- Sets what is done when signals arrive, up to the first name that is none of a signal. -/
def setTraps (action : Option Octets) : List Octets → Act Unit
  | [] => pure ()
  | name :: rest =>
    match Signal.ofText? 0 name with
    | none => do
      Act.send 2 (Octets.ofText "trap: " ++ name ++ Octets.ofText ": bad trap\n")
      Act.setStatus 1
    | some signal => do
      modify fun s =>
        { s with traps := action.toList.map (signal, ·) ++ s.traps.filter fun entry => entry.1 !=
          signal }
      setTraps action rest

/-- Sets what is done when signals arrive, or gives up what was set. -/
def trap (arguments : List Octets) : Act Unit := do
  let (_, operands) ← options "" arguments
  Act.setStatus 0
  match operands with
  | [] => showTraps
  | [name] => setTraps none [name]
  | action :: names =>
    if (Signal.ofDigits? action).isSome then setTraps none (action :: names)
    else setTraps (if action == ['-'] then none else some action) names

end Builtin

end Turnery.Shell
