import Turnery.Number.Literal
import Turnery.Shell.Utility.System

/-!
# Programs that call programs

These programs change what surrounds another one, or give it its arguments, and call it then.
-/

namespace Turnery.Shell

/-- Calls a program with arguments. If there is none, something is done with the reason and the
status that it comes to. -/
abbrev Caller := (String → Nat → Act Unit) → Octets → List Octets → Act Unit

abbrev Wrapper := Caller → Utility

namespace Wrapping

open Utility

/-- Complains that a program could not be called. -/
def unable (name : Octets) (lead : String) (reason : String) (status : Nat) : Act Unit := do
  complain name (lead ++ ": " ++ reason)
  Act.setStatus status

/-- Calls a program with other variables: none at all, or without some, or with some more. -/
def environment : Wrapper := fun call =>
  choosing ⟨"0iv", "CSu", [("ignore-environment", 'i'), ("unset", 'u'), ("null", '0')], true⟩ 125
      fun name c => do
    let before ← get
    let isBare := c.has 'i' || c.operands.head? == some ['-']
    let operands := if c.operands.head? == some ['-'] then c.operands.drop 1 else c.operands
    let assigned := operands.takeWhile fun a => a.contains '='
    if isBare then
      modify fun s => { s with bindings := [], marks := { s.marks with exported := [] } }
    (c.values 'u').forM fun other => modify fun s => (s.unassign other).conceal other
    assigned.forM fun a =>
      let key := a.takeWhile (· != '=')
      modify fun s => (s.assign key (a.drop (key.length + 1))).publish key
    let result ← Act.attempt
      (match operands.drop assigned.length with
        | [] => printVariables name []
        | program :: arguments => call (unable name (quoted program)) program arguments)
    modify fun s => { s with bindings := before.bindings, marks := before.marks }
    match result with
    | .ok () => pure ()
    | .error flow => throw flow

def calling (v : Vocabulary) (lead : Octets → String) : Wrapper := fun call =>
  choosing v 125 fun name c =>
    match c.operands with
    | [] => do
      lack name
      Act.setStatus 125
    | program :: arguments => call (unable name (lead program)) program arguments

def millis? (text : Octets) : Option Nat :=
  let unit := text.getLast?
  let factor := match unit with
    | some 'm' => 60000
    | some 'h' => 3600000
    | some 'd' => 86400000
    | _ => 1000
  let digits := if unit.any fun c => ['s', 'm', 'h', 'd'].contains c then text.dropLast else text
  if ["inf".toList, "infinity".toList].contains text then some State.never
  else
    (Number.unsigned? digits).map fun (mantissa, exponent) =>
      let n := mantissa * factor
      let unit := Nat.pow 10 exponent.natAbs
      if exponent < 0 then (n + (unit - 1)) / unit else n * unit

/-- The state of a process that was ended at a moment: what it sent later, it has not sent. -/
def cutAt (before : State) (moment : Nat) (s : State) : State :=
  let fresh := s.emitted.take (s.emitted.length - before.emitted.length)
  { s with
    limit := before.limit
    emitted := (fresh.filter fun (e : Emission) => e.time ≤ moment) ++ before.emitted
    holds := s.holds.map fun (h : Hold) => { h with finish := min h.finish moment } }

/-- Calls a program that is ended when a time is over. -/
def limited : Wrapper := fun call =>
  choosing ⟨"fv", "ks", [("foreground", 'f'), ("kill-after", 'k'), ("signal", 's')], true⟩ 125
      fun name c => do
    match c.operands with
    | time :: program :: arguments =>
      match millis? time with
      | none => do
        refuse name ("invalid time interval " ++ quoted time)
        Act.setStatus 125
      | some millis => do
        let before ← get
        let moment := before.now + millis
        let isShorter := millis != 0 && before.limit.all (moment < ·)
        if isShorter then set { before with limit := some moment }
        let result ← Act.attempt (call (unable name ("failed to run command " ++ quoted program))
          program arguments)
        modify fun s => { s with limit := before.limit }
        match result with
        | .ok () => pure ()
        | .error .late =>
          if isShorter then do
            modify (cutAt before moment)
            if ((c.value? 's').bind (Signal.ofText? 1)) == some Signal.lastResort then do
              Act.send 2 (Signal.remark Signal.lastResort)
              Act.setStatus (128 + Signal.lastResort)
            else Act.setStatus 124
          else throw .late
        | .error flow => throw flow
    | _ => do
      Act.send 2
        (Octets.ofText ("Try '" ++ Octets.toText name ++ " --help' for more information.\n"))
      Act.setStatus 125

/-- A word and what is left behind it; quotes and backslashes keep blanks in it. The first answer
tells whether a word has begun. -/
def wordAt : Option Char → Bool → Octets → Option Octets × Octets
  | _, hasBegun, [] => (if hasBegun then some [] else none, [])
  | none, _, '\\' :: c :: rest =>
    let (word, rest) := wordAt none true rest
    (some (c :: word.getD []), rest)
  | some quote, _, c :: rest =>
    if c == quote then wordAt none true rest
    else
      let (word, rest) := wordAt (some quote) true rest
      (some (c :: word.getD []), rest)
  | none, hasBegun, c :: rest =>
    if c == '"' || c == '\'' then wordAt (some c) true rest
    else if c == ' ' || c == '\t' || c == '\n'
      then (if hasBegun then (some [], rest) else wordAt none false rest)
    else
      let (word, rest) := wordAt none true rest
      (some (c :: word.getD []), rest)

def words : Nat → Octets → List Octets
  | 0, _ => []
  | more + 1, text =>
    match wordAt none false text with
    | (some word, rest) => word :: words more rest
    | (none, _) => []

def groups (size : Nat) : Nat → List Octets → List (List Octets)
  | 0, _ => []
  | more + 1, items =>
    if items.isEmpty then [] else items.take size :: groups size more (items.drop size)

/-- A text in which another stands wherever a sign stood; at most so many places are looked at. -/
def filled (sign text : Octets) : Nat → Octets → Octets
  | 0, rest => rest
  | _ + 1, [] => []
  | more + 1, c :: rest =>
    if sign.isPrefixOf (c :: rest) && !sign.isEmpty then
      text ++ filled sign text more ((c :: rest).drop sign.length)
    else c :: filled sign text more rest

def argumentVocabulary : Vocabulary where
  flags := "0rtxpi\x03"
  valued := "adEILnPs\x03"
  words :=
    [("null", '0'), ("no-run-if-empty", 'r'), ("verbose", 't'), ("delimiter", 'd'),
      ("max-args", 'n'),
    ("replace", '\x03'), ("max-procs", 'P'), ("max-lines", 'L')]
  isOrdered := true

def argumentLists (c : Choices) (fixed : List Octets) (text : Octets) : List (List Octets) :=
  let divided (sign : Char) : List Octets :=
    let pieces := text.splitOn sign
    if pieces.getLast? == some [] then pieces.dropLast else pieces
  match c.value? 'I' with
  | some sign =>
    let lines := (bareLines text).map fun line => line.dropWhile fun c => c == ' ' || c == '\t'
    (lines.filter fun line => !line.isEmpty).map fun line => fixed.map fun a =>
      filled sign line (a.length + 1) a
  | none =>
    let items := if c.has '0' then divided '\x00'
      else
        match c.value? 'd' with
        | some ['\\', 'n'] => divided '\n'
        | some sign => divided (sign.headD '\n')
        | none => words (text.length + 1) text
    let groups := match (c.value? 'n').or (c.value? 'L') with
      | some n => groups (max 1 (Number.natOfDigits n)) (items.length + 1) items
      | none => [items]
    let groups := if items.isEmpty then (if c.has 'r' then [] else [[]]) else groups
    groups.map fun group => fixed ++ group

/-- Calls a program with some arguments; a status that means failure is kept. -/
def callEach (call : Caller) (name program : Octets) (isShown : Bool) :
    Nat → List (List Octets) → Act Unit
  | status, [] => Act.setStatus status
  | status, arguments :: rest => do
    if isShown then Act.send 2 ([' '].intercalate (program :: arguments) ++ ['\n'])
    Act.setStatus 0
    let before ← get
    set (before.feed 0 .silent)
    call (unable name (Octets.toText program)) program arguments
    modify fun s => { s with descriptors := before.descriptors }
    let result := (← get).status
    if result == 126 || result == 127 then Act.setStatus result
    else if result == 255 then
      complain name (Octets.toText program ++ ": exited with status 255; aborting")
      Act.setStatus 124
    else callEach call name program isShown (if result == 0 then status else 123) rest

/-- Calls a program with arguments that are read from the input. -/
def fromInput : Wrapper := fun call =>
  choosing argumentVocabulary 1 fun name c => do
    match ← load ['-'] with
    | .error reason => complain name ("read error: " ++ reason)
    | .ok text =>
      let (program, fixed) := match c.operands with
        | [] => ("echo".toList, [])
        | program :: fixed => (program, fixed)
      callEach call name program (c.has 't') 0 (argumentLists c fixed text)

/-- The programs that call others, by name. -/
def table : List (String × Wrapper) :=
  [("env", environment),
    ("nice", calling ⟨"", "n", [("adjustment", 'n')], true⟩ quoted),
    ("nohup", calling ⟨"", "", [], true⟩ fun program => "failed to run command " ++ quoted program),
    ("timeout", limited), ("xargs", fromInput)]

end Wrapping

end Turnery.Shell
