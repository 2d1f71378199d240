import Turnery.Files.Program
import Turnery.Shell.Octets

/-!
# Signals

The signals that processes send each other: their numbers and names, what they do to a process that
has not said what is to be done, and what the shell says of a process that one of them has ended.
-/

namespace Turnery.Shell.Signal

open Turnery.Files

def harmless : List (Nat × String) :=
  [(17, "SIGCHLD"), (18, "SIGCONT"), (19, "SIGSTOP"), (20, "SIGTSTP"), (21, "SIGTTIN"),
    (22, "SIGTTOU"), (23, "SIGURG"), (28, "SIGWINCH")]

/-- The signals that stop a process until it is told to go on. -/
def stopping : List Nat := [19, 20, 21, 22]

def lastResort : Nat := 9

/-- The signal that asks a process to end. -/
def termination : Nat := 15

def last : Nat := 64

/-- The signal ends a process that has not said what is to be done. -/
def ends (signal : Nat) : Bool :=
  (signalNames.lookup signal).isSome || (32 ≤ signal && signal ≤ last)

/-- The name of a signal as lists show it. Zero stands for the end of a script. -/
def name (signal : Nat) : String :=
  let plain := Number.natText signal
  match (signalNames ++ harmless).lookup signal with
  | some name => if signal == 16 then plain else String.ofList (name.toList.drop 3)
  | none =>
    if signal == 0 then "EXIT"
    else if signal == 34 then "RTMIN"
    else if signal == last then "RTMAX"
    else if 34 < signal && signal < 50 then "RTMIN+" ++ Number.natText (signal - 34)
    else if 50 ≤ signal && signal < last then "RTMAX-" ++ Number.natText (last - signal)
    else plain

def ofDigits? (text : Octets) : Option Nat :=
  if text.isEmpty || !text.all Char.isDigit then none
  else some (Number.natOfDigits text) |>.filter (· ≤ last)

/-- The signal that a text gives by its number or its name; of the names, those from some number on
count. -/
def ofText? (least : Nat) (text : Octets) : Option Nat :=
  let isNamed (signal : Nat) : Bool :=
    least ≤ signal && (name signal).toList.map Char.toUpper == text.map Char.toUpper
  (ofDigits? text).or ((List.range (last + 1)).find? isNamed)

/-- What is said of processes that signals have ended. -/
def remarks : List (Nat × String) :=
  [(1, "Hangup"), (3, "Quit"), (4, "Illegal instruction"), (5, "Trace/breakpoint trap"),
    (6, "Aborted"), (7, "Bus error"), (8, "Floating point exception"), (9, "Killed"),
    (10, "User defined signal 1"), (11, "Segmentation fault"), (12, "User defined signal 2"),
    (14, "Alarm clock"), (15, "Terminated"), (16, "Stack fault"), (24, "CPU time limit exceeded"),
    (25, "File size limit exceeded"), (26, "Virtual timer expired"),
    (27, "Profiling timer expired"), (29, "I/O possible"), (30, "Power failure"),
    (31, "Bad system call")]

/-- The line that is shown of a process that a signal has ended. Some signals are passed over in
silence. -/
def remark (signal : Nat) : Octets :=
  let text :=
    if 34 ≤ signal then some ("Real-time signal " ++ Number.natText (signal - 34))
    else if 32 ≤ signal then some ("Unknown signal " ++ Number.natText signal)
    else remarks.lookup signal
  text.elim [] fun text => Octets.ofText (text ++ "\n")

end Turnery.Shell.Signal
