import Turnery.Shell.Run

/-!
# The shell as a program

The programs that can be run in a workspace are the shell and the utilities that its scripts can
call. The importer and its theory take any programs; these are the ones with which a normalizer that
is a shell script can be run without leaving the library, from the command line to the files,
outputs and ending that the importer looks at.

A program that runs longer than it may is ended by a signal; the end is noticed at the next of some
regular looks. An output that is still held open some time after that is given up.
-/

namespace Turnery.Shell

open Turnery.Files

/-- The milliseconds between two looks at a running program. -/
def lookInterval : Nat := 50

/-- The milliseconds for which outputs may stay open after a program has ended. -/
def outputGrace : Nat := 500

/-- How many commands a script may run. -/
def standardEffort : Nat := 300000

/-- How deep commands may be nested. -/
def maxDepth : Nat := 3000

def nextLook (moment : Nat) : Nat :=
  (moment + (lookInterval - 1)) / lookInterval * lookInterval

def State.start (w : Workspace) (name : Octets) (limit : Nat) : State where
  workspace := w
  directory := Octets.ofText (Path.ofSteps w.home)
  number := 4000
  process := 4000
  parents := []
  replacedAt := none
  name := name
  speaker := none
  line := 0
  arguments := []
  bindings := w.environment.map fun (key, value) => (Octets.ofText key, Octets.ofText value)
  marks := ⟨[], w.environment.map fun (key, _) => Octets.ofText key⟩
  aliases := []
  functions := []
  locals := []
  traps := []
  pending := []
  status := 0
  descriptors := [(0, .source 0), (1, .stream 1), (2, .stream 2)]
  sources := [(0, .silent)]
  emitted := []
  holds := []
  jobs := []
  now := 0
  limit := some limit
  effort := standardEffort
  level := 0
  switches := []
  optionPlace := ⟨1, none⟩
  mask := 18
  inFunction := false
  isPart := false
  unsent := none

/-- What was sent to an output, unless something holds it open beyond a moment. -/
def State.output? (s : State) (number moment : Nat) : Option (List UInt8) :=
  let target := Target.stream number
  if s.holds.any fun h => h.target == target && moment < h.finish then none
  else some (Octets.toBytes (s.textFor target))

def endingOf (status : Nat) : Except Flow Unit → Ending
  | .error (.killed signal) => .signal signal
  | .error .late => .signal 9
  | _ => .status status

/-- Runs a program with arguments for at most a number of milliseconds. -/
def runProgram (w : Workspace) (name : String) (arguments : List String) (millis : Nat) :
    Completion × Workspace :=
  if millis == 0 then (⟨.signal 9, true, some [], some []⟩, w)
  else
    let name := Octets.ofText name
    let act := Run.callProgram (Run.command maxDepth .plain) true name (arguments.map Octets.ofText)
    let (result, s) := Act.run act (State.start w name (nextLook millis))
    let s := s.settle
    let isLate := result matches .error .late
    let moment := max millis (nextLook s.now + outputGrace)
    (⟨endingOf s.status result, isLate, s.output? 1 moment, s.output? 2 moment⟩,
      { s.workspace with home := w.home })

def programs : Programs where
  canStart _ name := Outside.isProgram name
  run := runProgram

end Turnery.Shell
