import Turnery.Files.Workspace
import Turnery.Number.Digits

/-!
# Programs

Other programs are known by what the library needs of them: whether one of a name can be started,
and what comes of running it in a workspace for a limited time.
-/

namespace Turnery.Files

/-- How a program ended. -/
inductive Ending where
  /-- It ended by itself with a status. -/
  | status (code : Nat)
  /-- A signal ended it. -/
  | signal (number : Nat)
  deriving DecidableEq, Repr

/-- The names of the signals that end a program. -/
def signalNames : List (Nat × String) :=
  [(1, "SIGHUP"), (2, "SIGINT"), (3, "SIGQUIT"), (4, "SIGILL"), (5, "SIGTRAP"), (6, "SIGABRT"),
    (7, "SIGBUS"), (8, "SIGFPE"), (9, "SIGKILL"), (10, "SIGUSR1"), (11, "SIGSEGV"), (12, "SIGUSR2"),
    (13, "SIGPIPE"), (14, "SIGALRM"), (15, "SIGTERM"), (16, "SIGSTKFLT"), (24, "SIGXCPU"),
    (25, "SIGXFSZ"), (26, "SIGVTALRM"), (27, "SIGPROF"), (29, "SIGIO"), (30, "SIGPWR"),
    (31, "SIGSYS")]

def Ending.text : Ending → String
  | status code => "exit status: " ++ Number.natText code
  | signal number =>
    "signal: " ++ Number.natText number ++
      (match signalNames.lookup number with
        | some name => " (" ++ name ++ ")"
        | none => "")

/-- What a program has left when it is done with. An output is absent if something still held it
open. -/
structure Completion where
  ending : Ending
  timedOut : Bool
  output : Option (List UInt8)
  errors : Option (List UInt8)

structure Programs where
  /-- A program of the name can be started. -/
  canStart : Workspace → String → Bool
  /-- Runs a program with arguments for at most a number of milliseconds. -/
  run : Workspace → String → List String → Nat → Completion × Workspace

end Turnery.Files
