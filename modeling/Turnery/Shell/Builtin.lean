import Turnery.Shell.Condition
import Turnery.Shell.Directory
import Turnery.Shell.Expansion
import Turnery.Shell.Format
import Turnery.Shell.InputLine
import Turnery.Shell.Job
import Turnery.Shell.OptionScan
import Turnery.Shell.Switch

/-!
# Built-in commands

The commands that the shell carries out itself because they look at its state or change it. Those
that run further commands are not among them.
-/

namespace Turnery.Shell

open Turnery.Files

abbrev Builtin := List Octets → Act Unit

namespace Builtin

def nothing : Builtin := fun _ => Act.setStatus 0

def echo : Builtin := fun arguments => do
  match arguments with
  | ['-', 'n'] :: rest => Act.send 1 (Format.line false rest)
  | _ => Act.send 1 (Format.line true arguments)
  Act.setStatus 0

def print : Builtin := fun arguments => do
  match if arguments.head? == some ['-', '-'] then arguments.drop 1 else arguments with
  | [] =>
    Act.complain "usage: printf format [arg ...]"
    Act.setStatus 2
  | format :: rest =>
    let p := Format.print format rest
    Act.send 1 p.text
    p.complaints.forM fun message => Act.complain message
    Act.setStatus p.status

def condition (words : List Octets) : Act Unit := do
  let s ← get
  match Condition.evaluate s words with
  | .ok holds => Act.setStatus (if holds then 0 else 1)
  | .error message =>
    Act.complain message
    Act.setStatus 2

def bracket : Builtin := fun arguments =>
  if arguments.getLast? == some [']'] then condition arguments.dropLast
  else do
    Act.complain "missing ]"
    Act.setStatus 2

def leave : Builtin := fun arguments => do
  match arguments with
  | [] => Act.leave (← get).status
  | text :: _ => Act.leave (← number text)

/-- The status or the count that an argument gives. -/
def given (standard : Nat) (arguments : List Octets) : Act Nat :=
  match arguments with
  | [] => pure standard
  | text :: _ => number text

def returns : Builtin := fun arguments => do
  Act.setStatus (← given (← get).status arguments)
  throw .returns

def breaks : Builtin := fun arguments => do
  let loops ← given 1 arguments
  Act.setStatus 0
  throw (.breaks loops)

def continues : Builtin := fun arguments => do
  let loops ← given 1 arguments
  Act.setStatus 0
  throw (.continues loops)

def shift : Builtin := fun arguments => do
  let n ← given 1 arguments
  let s ← get
  if s.arguments.length < n then Act.fail "can't shift that many"
  else set { Switch.withArguments s (s.arguments.drop n) with status := 0 }

/-- Turns switches and sets arguments. -/
def settings : Builtin := fun arguments => do
  Act.setStatus 0
  Switch.settle (arguments.length + 1) arguments

/-- Sets the variables that are given with a value, and does something with each name. -/
def declare (mark : State → Octets → State) (arguments : List Octets) : Act Unit := do
  arguments.forM fun argument => do
    match Word.upTo? '=' argument with
    | some (name, value) => do
      Act.assign name value
      modify fun s => mark s name
    | none =>
      if Word.isName argument then modify fun s => mark s argument
      else Act.checkName argument
  Act.setStatus 0

def showVariables (command : String) (names : List Octets) : Act Unit := do
  let s ← get
  let sorted := names.eraseDups.mergeSort fun a b => Octets.order a b != .gt
  sorted.forM fun name =>
    let value := (s.valueOf? name).elim [] fun value => '=' :: Octets.singleQuoted value
    Act.send 1 (Octets.ofText (command ++ " ") ++ name ++ value ++ ['\n'])
  Act.setStatus 0

def asksForList (arguments : List Octets) : Bool :=
  arguments.isEmpty || arguments.head? == some ['-', 'p']

def makeExported : Builtin := fun arguments => do
  if asksForList arguments then showVariables "export" (← get).marks.exported
  else declare State.publish arguments

def makeFixed : Builtin := fun arguments => do
  if asksForList arguments then showVariables "readonly" (← get).marks.fixed
  else declare State.fix arguments

/-- Makes variables local to the function that is being called, with the values that are given. -/
def makeLocal : Builtin := fun arguments => do
  if !(← get).inFunction then Act.fail "not in a function"
  modify fun s =>
    let names := arguments.map fun a => a.takeWhile (· != '=')
    { s with locals := (names.map fun name => (name, s.valueOf? name)) ++ s.locals }
  declare (fun s _ => s) arguments

/-- Gives up variables, or functions if an option says so. -/
def unset : Builtin := fun arguments => do
  let names := arguments.filter fun a => a.head? != some '-'
  if arguments.head? == some ['-', 'f'] then
    modify fun s => { s with functions := s.functions.filter fun entry => !names.contains entry.1 }
  else
    names.forM fun name => do
      Act.checkName name
      modify fun s => (s.unassign name).conceal name
  Act.setStatus 0

def showAlias (name value : Octets) : Act Unit :=
  Act.send 1 (name ++ '=' :: Octets.singleQuoted value ++ ['\n'])

/-- Sets and shows replacements of words. -/
def replacements : Builtin := fun arguments => do
  Act.setStatus 0
  if arguments.isEmpty then (← get).aliases.reverse.forM fun entry => showAlias entry.1 entry.2
  else
    arguments.forM fun argument => do
      match Word.upTo? '=' argument with
      | some (name, value) => modify fun s =>
          { s with aliases := (name, value) :: s.aliases.filter fun entry => entry.1 != name }
      | none =>
        match (← get).aliases.lookup argument with
        | some value => showAlias argument value
        | none => do
          Act.send 2 (Octets.ofText "alias: " ++ argument ++ Octets.ofText " not found\n")
          Act.setStatus 1

/-- Gives up replacements of words. -/
def noReplacements : Builtin := fun arguments => do
  Act.setStatus 0
  if arguments.head? == some ['-', 'a'] then modify fun s => { s with aliases := [] }
  else
    arguments.forM fun name => do
      let s ← get
      if (s.aliases.lookup name).isSome then
        set { s with aliases := s.aliases.filter fun entry => entry.1 != name }
      else
        Act.send 2 (Octets.ofText "unalias: " ++ name ++ Octets.ofText " not found\n")
        Act.setStatus 1

/-- Shows or sets the permissions that new files do not get. -/
def permissions : Builtin := fun arguments => do
  let s ← get
  let octal (n : Nat) := List.replicate (4 - (Nat.toDigits 8 n).length) '0' ++ Nat.toDigits 8 n
  match arguments with
  | [] => do
    Act.send 1 (octal s.mask ++ ['\n'])
    Act.setStatus 0
  | ['-', 'S'] :: _ => do
    let letters (place : Nat) := [(4, 'r'), (2, 'w'), (1, 'x')].filterMap fun (bit, letter) =>
      if s.mask / Nat.pow 8 place / bit % 2 == 0 then some letter else none
    Act.send 1 ("u=".toList ++ letters 2 ++ ",g=".toList ++ letters 1 ++ ",o=".toList ++
      letters 0 ++ ['\n'])
    Act.setStatus 0
  | text :: _ =>
    match Number.natIn? 8 text with
    | some n => set { s with mask := n % 512, status := 0 }
    | none => Act.fail ("Illegal mode: " ++ Octets.toText text)

/-- Whether a line is to be read as it is, and the names of variables; or the letter of an option
that is none. -/
def readingOptions : List Octets → Except Char (Bool × List Octets)
  | ['-', '-'] :: rest => .ok (false, rest)
  | ['-', 'p'] :: _ :: rest => readingOptions rest
  | ('-' :: c :: letters) :: rest =>
    match (c :: letters).find? fun c => c != 'r' && c != 'p' with
    | some c => .error c
    | none => (readingOptions rest).map fun (_, names) => (true, names)
  | names => .ok (false, names)

/-- Reads a line into variables. The status tells whether the line was complete. -/
def readLine : Builtin := fun arguments => do
  match readingOptions arguments with
  | .error c => Act.fail ("Illegal option -" ++ String.singleton c)
  | .ok (_, []) => Act.fail "arg count"
  | .ok (raw, names) => do
    let s ← get
    let taken := InputLine.take raw s.input.rest
    set (s.leaveInput taken.rest)
    let values := InputLine.values s.separators names.length taken.line
    (names.zip values).forM fun (name, value) => Act.assign name value
    Act.setStatus (if taken.complete then 0 else 1)

/-- Reads the next option among the arguments into a variable. -/
def readOption : Builtin := fun arguments => do
  match arguments with
  | specification :: name :: given => do
    let s ← get
    let step :=
      OptionScan.next specification (if given.isEmpty then s.arguments else given) s.optionPlace
    Act.send 2 step.complaint
    let valueName := "OPTARG".toList
    match step.value, step.isOver with
    | some value, _ => Act.assign valueName value
    | none, false => modify fun s => s.unassign valueName
    | none, true => pure ()
    Act.assign Act.optionIndexName (Number.digits step.place.index)
    modify fun s => { s with optionPlace := step.place }
    Act.assign name [step.shown]
    Act.setStatus (if step.isOver then 1 else 0)
  | _ => Act.fail "Usage: getopts optstring var [arg...]"

def lookUp : Builtin := fun arguments => do
  Act.setStatus 0
  arguments.forM fun name => do
    let text := Octets.toText name
    if !name.contains '/' && !Outside.isProgram text then
      Act.complain (text ++ ": not found")
      Act.setStatus 1

/-- Shows how much time has been used, of which there is none to speak of. -/
def showTimes : Builtin := fun _ => do
  let line := "0m0.000000s 0m0.000000s\n".toList
  Act.send 1 (line ++ line)
  Act.setStatus 0

/-- Shows a limit, of which there are none. One that is given is not kept. -/
def showLimit : Builtin := fun arguments => do
  let (_, operands) ← options "HSatfdsmcnpvwr" arguments
  if operands.isEmpty then Act.send 1 "unlimited\n".toList
  Act.setStatus 0

/-- The built-in commands whose assignments last and whose failure ends a script. -/
def special : List (String × Builtin) :=
  [(":", nothing), ("break", breaks), ("continue", continues), ("exit", leave),
    ("export", makeExported), ("local", makeLocal), ("readonly", makeFixed), ("return", returns),
    ("set", settings), ("shift", shift), ("times", showTimes), ("trap", trap), ("unset", unset)]

def regular : List (String × Builtin) :=
  [("[", bracket), ("alias", replacements), ("bg", resume), ("cd", changeDirectory),
    ("chdir", changeDirectory), ("echo", echo), ("false", fun _ => Act.setStatus 1), ("fg", resume),
    ("getopts", readOption), ("hash", lookUp), ("jobs", showJobs), ("kill", kill),
    ("printf", print), ("pwd", showDirectory), ("read", readLine), ("test", condition),
    ("true", nothing), ("ulimit", showLimit), ("umask", permissions), ("unalias", noReplacements),
    ("wait", wait)]

end Builtin

end Turnery.Shell
