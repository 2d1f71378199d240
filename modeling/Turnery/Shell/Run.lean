import Turnery.Shell.Alias
import Turnery.Shell.Builtin
import Turnery.Shell.Redirect
import Turnery.Shell.Utility

/-!
# Running commands

Commands are run by recursion on a depth, which bounds how deep commands, functions and scripts are
nested. Loops are bounded by the effort that is left, of which every command uses some.
-/

namespace Turnery.Shell.Run

open Turnery.Files

/-- Repeats a round as long as it gives a status; the last status is the answer. -/
def iterate (round : Act (Option Nat)) : Nat → Nat → State → Except Flow Nat × State
  | 0, status, s => (.ok status, s)
  | more + 1, status, s =>
    match round s with
    | (.ok (some status), s) => iterate round more status s
    | (.ok none, s) => (.ok status, s)
    | (.error flow, s) => (.error flow, s)

/-- Does the body of a loop. The answer is the status if the loop goes on. -/
def loopBody (body : Act Unit) : Act (Option Nat) := do
  match ← Act.attempt body with
  | .ok () => return some (← get).status
  | .error (.continues loops) =>
    if loops ≤ 1 then return some (← get).status else throw (.continues (loops - 1))
  | .error flow => throw flow

def loopEnd (loop : Act Unit) : Act Unit := do
  match ← Act.attempt loop with
  | .error (.breaks loops) => if loops ≤ 1 then pure () else throw (.breaks (loops - 1))
  | .error flow => throw flow
  | .ok () => pure ()

/-- Repeats a body as long as a test says so. -/
def whileLoop (whileFails : Bool) (test body : Act Unit) : Act Unit := do
  let round : Act (Option Nat) := do
    test
    if ((← get).status == 0) != whileFails then loopBody body else return none
  let s ← get
  let status ← (iterate round (s.effort + 1) 0 : Act Nat)
  Act.setStatus status

/-- Repeats a body for some values of a variable. -/
def forLoop (name : Octets) (body : Act Unit) : List Octets → Act Unit
  | [] => pure ()
  | value :: rest => do
    Act.assign name value
    let _ ← loopBody body
    forLoop name body rest

/-- Ends the script if a failure is not looked at. -/
def checkFailure (tested : Bool) : Act Unit := do
  let s ← get
  if s.has "errexit" && !tested && s.status != 0 then throw .leave

/-- Does something with some variables set, of which programs are told, and puts them back
afterwards. -/
def withVariables (values : List (Octets × Octets)) (act : Act Unit) : Act Unit := do
  let before ← get
  values.forM fun (name, value) => do
    Act.assign name value
    modify fun s => s.publish name
  let result ← Act.attempt act
  modify fun s => values.foldl (fun s (name, _) =>
    let s := s.restore name (before.valueOf? name)
    if before.marks.exported.contains name then s else s.conceal name) s
  match result with
  | .ok () => pure ()
  | .error flow => throw flow

/-- Calls a utility. It fails if it could not send all. -/
def callUtility (utility : Utility) (name : Octets) (arguments : List Octets) : Act Unit := do
  modify fun s => { s.settle with status := 0, unsent := none }
  utility name arguments
  match (← get).unsent with
  | some reason => do
    Utility.complainOfOutput name reason
    modify fun s => { s with unsent := none }
  | none => pure ()

/-- Lets time pass. A process that has taken the place of the shell is ended where the shell would
be. -/
def pause (inPlace : Bool) (millis : Nat) : Act Unit := do
  let s ← get
  let finish := s.now + millis
  if inPlace then modify fun s => { s with replacedAt := some s.now }
  if !inPlace || s.limit.isNone then
    modify fun s => s.hold (if inPlace then s.process else 0) finish
  Act.waitUntil finish

/-- Lets the time pass that the arguments say. -/
def sleep (inPlace : Bool) : Utility :=
  Utility.plain fun name operands => do
    let wrong := operands.filter fun a => (Wrapping.millis? a).isNone
    match operands, wrong.reverse with
    | [], _ => Utility.lack name
    | _, last :: others => do
      let message (a : Octets) := "invalid time interval " ++ Utility.quoted a
      others.reverse.forM fun a => Utility.complain name (message a)
      Utility.refuse name (message last)
    | _, [] =>
      let millis := (operands.filterMap Wrapping.millis?).foldl (· + ·) 0
      if millis == 0 then pure () else pause inPlace millis

def which : Utility :=
  Utility.choosing ⟨"as", "", [], true⟩ 1 fun _ c =>
    c.operands.forM fun name =>
      match Outside.programPath? (Octets.toText name) with
      | some path => Act.send 1 (Octets.ofText (path ++ "\n"))
      | none => Act.setStatus 1

def callFunction (body : Act Unit) (arguments : List Octets) : Act Unit := do
  let before ← get
  set { before with
    arguments := arguments
    locals := []
    optionPlace := ⟨1, none⟩
    inFunction := true }
  let result ← Act.attempt body
  modify fun s =>
    { s.locals.foldl (fun s entry => s.restore entry.1 entry.2) s with
      arguments := before.arguments
      locals := before.locals
      inFunction := before.inFunction
      optionPlace := before.optionPlace }
  match result with
  | .ok () => pure ()
  | .error .returns => pure ()
  | .error flow => throw flow

/-- Complains that a command cannot be called, which has come to a status. -/
def notFound (name : Octets) (status : Nat) : Act Unit := do
  let text := Octets.toText name
  Act.complain
    (if name.isEmpty then ": Permission denied"
    else text ++ (if status == 126 then ": Permission denied" else ": not found"))
  Act.setStatus status

/-- Shows lines that have been read, if that is wanted. -/
def showRead (source : List Octets) (shown reached : Nat) : Act Unit := do
  let s ← get
  if s.has "verbose" then Act.send 2 ((source.take reached).drop shown).flatten

/-- Runs the complete commands of tokens, of which there are at most so many, one after another. Of
the lines of a file, some have been shown. -/
def lines (runCommand : Command → Act Unit) (source : List Octets) :
    Nat → Nat → List Lexeme → Act Unit
  | 0, _, _ => pure ()
  | more + 1, shown, tokens => do
    let aliases := (← get).aliases
    match Grammar.next (Alias.replaced aliases tokens) with
    | .ok none => showRead source shown source.length
    | .ok (some (command, rest)) => do
      let rest := Alias.unreplaced aliases tokens rest
      let used := tokens.take (tokens.length - rest.length)
      let reached := (used.getLast?.map Lexeme.line).getD shown
      showRead source shown reached
      runCommand command
      lines runCommand source more reached rest
    | .error fault => do
      modify fun s => { s with line := fault.line }
      Act.fail fault.fault.message

def script (runCommand : Command → Act Unit) (text : Octets) : Act Unit := do
  let tokens := Token.ofText 1 text
  lines runCommand [] (tokens.length + 1) 0 tokens

def fileScript (runCommand : Command → Act Unit) (text : Octets) : Act Unit := do
  let tokens := Token.ofText 1 text
  lines runCommand (Utility.lines text) (tokens.length + 1) 0 tokens

def scriptText (path : Octets) : Act Octets := do
  let s ← get
  match Opening.ofPath s path with
  | .ok o => do
    set (o.leave s [])
    pure (o.text s)
  | .error e =>
    Act.fail ("cannot open " ++ Octets.toText path ++ ": " ++ Redirection.reason "No such file" e)

/-- The text of a script that is read into the current one. Its path must lead through a
directory. -/
def includedText (path : Octets) : Act Octets :=
  if path.contains '/' then scriptText path else Act.fail (Octets.toText path ++ ": not found")

/-- Takes note of a signal that has arrived: it ends the process unless something else is set for
it. -/
def heed (runCommand : Command → Act Unit) (signal : Nat) : Act Unit := do
  let s ← get
  match s.traps.lookup signal with
  | some action => do
    script runCommand action
    Act.setStatus s.status
  | none =>
    if Signal.stopping.contains signal then Act.waitUntil State.never
    else if Signal.ends signal then throw (.killed signal)
    else pure ()

/-- Takes note of all signals that have arrived for the shell; the last resort cannot be changed. A
part of a process leaves them to the whole. -/
def heedAll (runCommand : Command → Act Unit) : Act Unit := do
  let s ← get
  if !s.isPart then
    let (own, others) := s.pending.partition fun entry => entry.1 == s.number
    set { s with pending := others }
    own.forM fun (_, signal) =>
      if signal == Signal.lastResort then throw (.killed signal) else heed runCommand signal

def wholeScript (runCommand : Command → Act Unit) (act : Act Unit) : Act Unit := do
  let result ← Act.attempt act
  let isOver := match result with
    | .error (.killed _) | .error .late => true
    | _ => false
  if !isOver then
    let s ← get
    set { s with traps := s.traps.filter fun entry => entry.1 != 0 }
    match s.traps.lookup 0 with
    | some action => do
      script runCommand action
      Act.setStatus s.status
    | none => pure ()
  match result with
  | .ok () => pure ()
  | .error flow => throw flow

/-- What the arguments of a shell ask for: a text or the path of a file, and what is left. -/
structure Invocation where
  letters : List Char
  operands : List Octets

/-- The options of a shell, and what follows them. -/
def Invocation.ofArguments : List Octets → Invocation
  | ('-' :: c :: letters) :: rest =>
    let i := ofArguments rest
    ⟨c :: letters ++ i.letters, i.operands⟩
  | operands => ⟨[], operands⟩

def ownVariables (s : State) : List (Octets × Octets) :=
  [("IFS".toList, [' ', '\t', '\n']), (Act.optionIndexName, ['1']), ("PS2".toList, "> ".toList),
    ("PS4".toList, "+ ".toList), ("PWD".toList, s.directory),
    ("PPID".toList, Number.digits (s.parents.headD (s.number - 1)))]

/-- The state in which a shell starts in the process: it knows only the variables that it is told
of. -/
def freshShell (name : Octets) (letters : List Char) (s : State) : State :=
  let told := s.bindings.filter fun entry => s.marks.exported.contains entry.1
  let s := { s with bindings := told }
  let s := { s with directory := Directory.told s }
  let own := ownVariables s
  { s.publish "PWD".toList with
    name := name
    speaker := none
    line := 0
    arguments := []
    bindings := own ++ told.filter fun entry => (own.lookup entry.1).isNone
    marks := { (s.publish "PWD".toList).marks with fixed := [] }
    aliases := []
    functions := []
    locals := []
    switches := letters.filterMap Switch.nameOf?
    optionPlace := ⟨1, none⟩ }

/-- Runs a shell with arguments: a text behind an option, or a file, or what can be read. -/
def shell (runCommand : Command → Act Unit) (name : Octets) (arguments : List Octets) :
    Act Unit := do
  let i := Invocation.ofArguments arguments
  modify (freshShell name i.letters)
  match i.operands, i.letters.contains 'c' with
  | text :: rest, true => do
    modify fun s => { s with name := rest.headD name, arguments := rest.drop 1 }
    wholeScript runCommand (script runCommand text)
  | path :: rest, false => do
    let text ← scriptText path
    modify fun s => { s with name := path, arguments := rest }
    wholeScript runCommand (fileScript runCommand text)
  | [], _ => do
    let s ← get
    set (s.leaveInput [])
    wholeScript runCommand (fileScript runCommand s.input.rest)

/-- The state of a process of which a shell takes the place, with a number that the script can ask
for. -/
def renumbered (s : State) : State :=
  let number := if s.process == s.number then s.number + 1000 else s.process
  { s with
    number := number
    process := number
    parents := s.number :: s.parents
    isPart := false }

/-- Runs a shell in a process of its own, or in the process of a part, whose place it takes. -/
def innerShell (runCommand : Command → Act Unit) (inPlace : Bool) (name : Octets)
    (arguments : List Octets) :
    Act Unit := do
  let isPart := (← get).isPart
  if inPlace then do
    if isPart then modify renumbered
    shell runCommand name arguments
  else
    Act.within do
      modify fun s => renumbered { s with process := s.number }
      shell runCommand name arguments

/-- The first case of a choice with a pattern that describes the text. -/
def chosen (output : Octets → Act Octets) (text : Octets) :
    List (List Word × Command) → Act (Option Command)
  | [] => pure none
  | (patterns, body) :: rest => do
    let marks ← patterns.mapM (Expansion.wordMarks output)
    if marks.any fun ms => Pattern.describes (Pattern.parts (Mark.joined ms)) text then
      pure (some body)
    else chosen output text rest

/-- The values of assignments, which see those before them. -/
def assignments (output : Octets → Act Octets) : List (Octets × Word) → Act (List (Octets × Octets))
  | [] => pure []
  | (name, word) :: rest => do
    let value ← Expansion.text output word
    Act.assign name value
    let others ← assignments output rest
    pure ((name, value) :: others)

/-- How a file begins that names the program that is to read it. -/
def readerOf? (text : Octets) : Option (List Octets) :=
  match text with
  | '#' :: '!' :: rest =>
    let line := rest.takeWhile (· != '\n')
    some ((line.splitOn ' ').filter fun word => !word.isEmpty)
  | _ => none

/-- The program that reads a file of the workspace, with its arguments, if the file can be run. -/
def reader? (w : Workspace) (path : Octets) : Option (Octets × List Octets) :=
  let text := Octets.toText path
  match w.place? text, w.read text with
  | .ok place, .ok bytes =>
    if path.contains '/' && w.runnable.contains place then
      match readerOf? (Octets.ofBytes bytes) with
      | some (program :: arguments) => some (program, arguments ++ [path])
      | _ => some (['s', 'h'], [path])
    else none
  | _, _ => none

/-- A built-in command that is called as a program. -/
def asProgram (builtin : Builtin) : Utility := fun name words =>
  Act.inNameOf name (builtin words)

/-- Calls a program, which may take the place of the shell; calls are nested at most so deep. If
there is no such program, something is done with the reason and the status. -/
def callNested (runCommand : Command → Act Unit) :
    Nat → (String → Nat → Act Unit) → Bool → Octets → List Octets →
    Act Unit
  | 0, _, _, _, _ => pure ()
  | more + 1, missing, inPlace, name, arguments => do
    let text := Octets.toText name
    let plain := Utility.plainName text
    let w := (← get).workspace
    let call : Caller :=
      fun missing name arguments => callNested runCommand more missing false name arguments
    if Outside.isShell text then
      innerShell runCommand inPlace name arguments
    else
      match Utility.find? text, Wrapping.table.lookup plain, reader? w name with
      | some utility, _, _ => callUtility utility name arguments
      | none, some wrapper, _ => callUtility (wrapper call) name arguments
      | none, none, some (program, given) =>
        callNested runCommand more missing inPlace program (given ++ arguments)
      | none, none, none =>
        if plain == "sleep" then callUtility (sleep inPlace) name arguments
        else if plain == "which" then callUtility which name arguments
        else if plain == "test" then callUtility (asProgram Builtin.condition) name arguments
        else if plain == "[" then callUtility (asProgram Builtin.bracket) name arguments
        else if name.contains '/' && w.contains text then missing "Permission denied" 126
        else missing "No such file or directory" 127

/-- Calls a program, which may take the place of the shell. A shell that waits for it notices which
jobs are over. -/
def callProgram (runCommand : Command → Act Unit) (inPlace : Bool) (name : Octets)
    (arguments : List Octets) : Act Unit := do
  callNested runCommand (arguments.length + 3) (fun _ status => notFound name status) inPlace name
    arguments
  modify State.notice

/-- Calls a built-in command. It fails also if it could not send all. -/
def callBuiltin (name : Octets) (builtin : Builtin) (arguments : List Octets) : Act Unit :=
  Act.inNameOf name do
    modify fun s => { s with unsent := none }
    let result ← Act.attempt (builtin arguments)
    if (← get).unsent.isSome then
      Act.complain (Octets.toText name ++ ": I/O error")
      modify fun s => { s with unsent := none, status := 1 }
    match result with
    | .ok () => pure ()
    | .error flow => throw flow

/-- Calls a built-in command that does not end the script where it fails. -/
def callTolerantly (name : Octets) (builtin : Builtin) (arguments : List Octets) : Act Unit := do
  match ← Act.attempt (callBuiltin name builtin arguments) with
  | .ok () | .error .leave => pure ()
  | .error flow => throw flow

inductive Meaning where
  | keyword
  | replacement (text : Octets)
  | special
  | function
  | builtin
  | program (path : String)

/-- The commands that run further commands and whose failure ends a script. -/
def runningSpecial : List String := [".", "eval", "exec"]

/-- What a name calls, if it calls anything. -/
def Meaning.ofName? (s : State) (name : Octets) : Option Meaning :=
  let text := Octets.toText name
  if Token.reserved.contains text then some keyword
  else
    match s.aliases.lookup name with
    | some value => some (replacement value)
    | none =>
      if (Builtin.special.lookup text).isSome || runningSpecial.contains text then some special
      else if (s.functions.lookup name).isSome then some function
      else if (Builtin.regular.lookup text).isSome || text == "command" || text == "type"
        then some builtin
      else if name.contains '/' then
        let isThere := Outside.isProgramPath text || (reader? s.workspace name).isSome
        if isThere then some (program text) else none
      else (Outside.programPath? text).map program

/-- Shows what a name calls, in words or in short. -/
def describe (verbose : Bool) (name : Octets) : Act Unit := do
  let s ← get
  let meaning := Meaning.ofName? s name
  let words := match meaning with
    | none => ": not found"
    | some .keyword => " is a shell keyword"
    | some (.replacement text) => " is an alias for " ++ Octets.toText text
    | some .special => " is a special shell builtin"
    | some .function => " is a shell function"
    | some .builtin => " is a shell builtin"
    | some (.program path) => " is " ++ path
  let short := match meaning with
    | none => []
    | some (.replacement text) =>
      "alias ".toList ++ name ++ '=' :: Octets.singleQuoted text ++ ['\n']
    | some (.program path) => Octets.ofText (path ++ "\n")
    | some _ => name ++ ['\n']
  Act.send 1 (if verbose then name ++ Octets.ofText (words ++ "\n") else short)
  if meaning.isNone then Act.setStatus 127

def describeAll (names : List Octets) : Act Unit := do
  Act.setStatus 0
  names.forM (describe true)

/-- Tells what names call, for each that is asked for by an option. -/
def describeFor : Builtin := fun arguments => do
  let (letters, names) ← Builtin.options "pvV" arguments
  Act.setStatus 0
  match names with
  | name :: _ =>
    if letters.contains 'v' || letters.contains 'V' then describe (letters.contains 'V') name
  | [] => pure ()

/-- The special built-in commands that run further commands. -/
def running (runCommand : Command → Act Unit) : List (String × Builtin) :=
  [(".", fun arguments => do
      let path :=
        ((if arguments.head? == some ['-', '-'] then arguments.drop 1 else arguments).head?).getD []
      let text ← includedText path
      Act.setStatus 0
      match ← Act.attempt (Act.inNameOf path (fileScript runCommand text)) with
      | .ok () => pure ()
      | .error .returns => pure ()
      | .error flow => throw flow),
    ("eval", fun arguments => do
      Act.setStatus 0
      script runCommand ([' '].intercalate arguments)),
    ("exec", fun arguments =>
      match arguments with
      | [] => Act.setStatus 0
      | name :: rest => do
        callProgram runCommand true name rest
        throw .leave)]

/-- What is called in place of a command that is told to call another: that, unless the options ask
for something else. -/
def commanded? : List Octets → Option (Octets × List Octets)
  | [] => none
  | ['-', '-'] :: name :: rest => some (name, rest)
  | ['-', '-'] :: [] => none
  | ('-' :: c :: letters) :: rest => if (c :: letters).all (· == 'p') then commanded? rest else none
  | name :: rest => some (name, rest)

/-- A command with its arguments, and whether it is called by a command that is told to call it. -/
def commanded : Nat → Bool → Octets → List Octets → Bool × Octets × List Octets
  | 0, isTold, name, arguments => (isTold, name, arguments)
  | more + 1, isTold, name, arguments =>
    match if name == "command".toList then commanded? arguments else none with
    | some (name, arguments) => commanded more true name arguments
    | none => (isTold, name, arguments)

/-- Calls a command with some variables set; it may be the last one of its process. -/
def call (runCommand : Command → Act Unit) (final : Bool) (values : List (Octets × Octets))
    (name : Octets) (arguments : List Octets) : Act Unit := do
  let s ← get
  let unknown := ((s.functions.lookup "command".toList).map fun _ => (false, name, arguments))
  let (isTold, name, arguments) :=
    unknown.getD (commanded (arguments.length + 1) false name arguments)
  let text := Octets.toText name
  let function := if isTold then none else s.functions.lookup name
  match (Builtin.special.lookup text).or ((running runCommand).lookup text), function with
  | some builtin, _ =>
    if isTold then
      withVariables values (if text == "exec" then callBuiltin name builtin arguments
        else callTolerantly name builtin arguments)
    else do
      values.forM fun (name, value) => Act.assign name value
      callBuiltin name builtin arguments
  | none, some body => withVariables values (callFunction (runCommand body) arguments)
  | none, none =>
    let regular := Builtin.regular ++ [("command", describeFor), ("type", describeAll)]
    withVariables values
      (match regular.lookup text with
        | some builtin => callTolerantly name builtin arguments
        | none => callProgram runCommand final name arguments)

/-- A redirection of the command that is not possible ends the script. -/
def isSpecial (name : Octets) : Bool :=
  (Builtin.special.lookup (Octets.toText name)).isSome ||
    runningSpecial.contains (Octets.toText name)

/-- Shows a command before it runs, if that is wanted. -/
def trace (output : Octets → Act Octets) (target : Option Target) (values : List (Octets × Octets))
    (fields : List Octets) : Act Unit := do
  let s ← get
  if s.has "xtrace" then
    let lead := (s.valueOf? "PS4".toList).getD "+ ".toList
    let lead ← match Word.ofText .document lead with
      | .ok word => do
        modify fun s => Switch.turn s false "xtrace"
        let text ← Expansion.text output word
        modify fun s => Switch.turn s true "xtrace"
        pure text
      | .error _ => pure lead
    let words := (values.map fun (name, value) => name ++ '=' :: value) ++ fields
    match target with
    | some target => modify fun s => s.sendTo target (lead ++ [' '].intercalate words ++ ['\n'])
    | none => pure ()

/-- Runs a simple command: its words are expanded, its redirections are made, its variables are set,
and it is called. -/
def simple (runCommand : Command → Act Unit) (final : Bool) (output : Octets → Act Octets)
    (line : Nat) (assigned : List (Octets × Word)) (words : List Word) (rs : List Redirection) :
    Act Unit := do
  Act.spend
  modify fun s => { s with line := line }
  let fields ← Expansion.fields output words
  let errors := (← get).target? 2
  match fields with
  | [] =>
    let setting : Act Unit := do
      let values ← assignments output assigned
      trace output errors values []
      if !(words.any Expansion.runsScripts || assigned.any fun entry =>
        Expansion.runsScripts entry.2) then
        Act.setStatus 0
    Redirection.during output rs (Act.setStatus 2) setting
    heedAll runCommand
  | name :: arguments => do
    let calling : Act Unit := do
      let before ← get
      let values ← assignments output assigned
      modify fun s => { s with bindings := before.bindings }
      trace output errors values fields
      call runCommand final values name arguments
    if fields == ["exec".toList] then
      if ← Redirection.makeAll output rs then calling else Act.leave 2
    else Redirection.during output rs (if isSpecial name then Act.leave 2
      else Act.setStatus 2) calling
    heedAll runCommand

/-- The milliseconds after which a command in the background starts. -/
def startDelay : Nat := 1

def inBackground (act : Act Unit) : Act Unit := do
  let before ← get
  set { before.feed 0 .silent with now := before.now + startDelay }
  let number := before.number + before.jobs.length + 1
  let span ← Act.apart do
    modify fun s => { s with
      process := number
      traps := [(2, []), (3, [])] ++ s.traps }
    act
  let s ← get
  set { s.hold number span.release with
    descriptors := before.descriptors
    now := before.now
    status := 0
    jobs := ⟨number, span, false, false⟩ :: s.jobs }

/-- Runs two commands, the second on the output of the first, for whose end it waits. -/
def inPipe (first second : Act Unit) : Act Unit := do
  let (text, one) ← Act.captured first
  let after ← get
  set (after.feed 0 (.ofPipe text))
  let other ← Act.apart second
  let finish := max one.finish other.finish
  modify fun s => { s with descriptors := after.descriptors }.hold 0 finish
  Act.await one
  Act.await other

/-- How a command is run: whether its failure is tested, and whether it is the last one of its
process. -/
structure Mode where
  tested : Bool
  final : Bool

namespace Mode

def plain : Mode := ⟨false, false⟩

def early (mode : Mode) : Mode := { mode with final := false }

/-- Its failure is tested, and more follows. -/
def test : Mode := ⟨true, false⟩

def whole (mode : Mode) : Mode := { mode with final := true }

end Mode

/-- Runs a command. A failure that is not tested may end the script. -/
def command : Nat → Mode → Command → Act Unit
  | 0, _, _ => Act.fail "Maximum function recursion depth (1000) reached"
  | depth + 1, mode, c => do
    let output (text : Octets) : Act Octets := do
      let (result, span) ← Act.captured
        (wholeScript (command depth .plain) (script (command depth .plain) text))
      Act.await span
      pure result
    let whole (act : Act Unit) : Act Unit := wholeScript (command depth .plain) act
    match if (← get).has "noexec" then .nothing else c with
    | .nothing => pure ()
    | .simple line assigned words => do
      simple (command depth mode.early) mode.final output line assigned words []
      checkFailure mode.tested
    | .redirected _ (.simple line assigned words) rs => do
      simple (command depth mode.early) mode.final output line assigned words rs
      checkFailure mode.tested
    | .redirected line (.subshell body) rs => do
      modify fun s => { s with line := line }
      let inner := Redirection.during output rs (Act.setStatus 2) (command depth mode.whole body)
      if mode.final then inner else Act.within (whole inner)
      heedAll (command depth .plain)
      checkFailure mode.tested
    | .redirected line body rs => do
      modify fun s => { s with line := line }
      Redirection.during output rs (Act.setStatus 2) (command depth mode.early body)
    | .pipe first second => do
      inPipe (whole (command depth ⟨true, true⟩ first)) (whole (command depth ⟨true, true⟩ second))
      heedAll (command depth .plain)
      checkFailure mode.tested
    | .negation body => do
      command depth .test body
      let s ← get
      Act.setStatus (if s.status == 0 then 1 else 0)
    | .both first second => do
      command depth .test first
      if (← get).status == 0 then command depth mode second
    | .either first second => do
      command depth .test first
      if (← get).status != 0 then command depth mode second
    | .sequence first second => do
      command depth mode.early first
      command depth mode second
    | .background body => inBackground (whole (command depth ⟨false, true⟩ body))
    | .subshell body => do
      if mode.final then command depth mode body
      else Act.within (whole (command depth mode.whole body))
      heedAll (command depth .plain)
      checkFailure mode.tested
    | .branch test yes no => do
      command depth .test test
      if (← get).status == 0 then command depth mode yes
      else
        match no with
        | .nothing => Act.setStatus 0
        | no => command depth mode no
    | .loop whileFails test body =>
      loopEnd (whileLoop whileFails (command depth .test test) (command depth mode.early body))
    | .each name words body => do
      let s ← get
      let values ← match words with
        | some words => Expansion.fields output words
        | none => pure s.arguments
      Act.setStatus 0
      loopEnd (forLoop name (command depth mode.early body) values)
    | .choice subject cases => do
      let text ← Expansion.text output subject
      match ← chosen output text cases with
      | some body => command depth mode body
      | none => Act.setStatus 0
    | .definition name body => do
      modify fun s =>
        { s with functions := (name, body) :: s.functions.filter fun entry => entry.1 != name }
      Act.setStatus 0

end Turnery.Shell.Run
