import Turnery.Shell.Numeral
import Turnery.Shell.Outside

/-!
# Conditions

Conditions on texts, integers and files, given as a list of words. The reader stands on a word and
looks at the one behind it; what it leaves begins with the word that it has used last, and with that
word complaints begin.
-/

namespace Turnery.Shell.Condition

open Turnery.Files

inductive Kind where
  | single
  | double
  | negation
  | conjunction
  | disjunction
  | opening
  | closing
  deriving DecidableEq, Repr

def singleSigns : List String :=
  ["-r", "-w", "-x", "-e", "-f", "-d", "-c", "-b", "-p", "-u", "-g", "-k", "-s", "-t", "-z", "-n",
    "-h", "-O", "-G", "-L", "-S"]

/-- The operators between two operands. -/
def doubleSigns : List String :=
  ["=", "!=", "<", ">", "-eq", "-ne", "-ge", "-gt", "-le", "-lt", "-nt", "-ot", "-ef"]

def kind? (word : Octets) : Option Kind :=
  let text := Octets.toText word
  match text with
  | "!" => some .negation
  | "-a" => some .conjunction
  | "-o" => some .disjunction
  | "(" => some .opening
  | ")" => some .closing
  | _ => if singleSigns.contains text then some .single else if doubleSigns.contains text
    then some .double else none

inductive Role where
  | finish
  | operand
  | operator (kind : Kind)
  deriving DecidableEq, Repr

/-- What the first word is used as. A sign for one operand is none where nothing follows it or an
operator for two does, and an opening parenthesis is none at the end. -/
def Role.ofWords : List Octets → Role
  | [] => finish
  | word :: rest =>
    match kind? word, rest with
    | some .single, [] => operand
    | some .single, sign :: _ :: _ =>
      if kind? sign == some .double then operand else operator .single
    | some .opening, [] => operand
    | some kind, _ => operator kind
    | none, _ => operand

/-- What a path leads to, as far as conditions tell. -/
inductive Subject where
  | directory
  | file (isEmpty canRun : Bool)
  | device
  | pipe
  deriving DecidableEq, Repr

namespace Subject

def ofDescriptor? (s : State) (descriptor : Nat) : Option Subject :=
  let ofSource (number : Nat) : Subject :=
    match ((s.sources.lookup number).getD .silent).origin with
    | .pipe => pipe
    | .device => device
    | .file whole => file whole.isEmpty false
  (s.target? descriptor).map fun
    | .source number => ofSource number
    | .file place => file (s.workspace.node? place == some (.file [])) false
    | .device _ => device
    | .stream _ | .capture _ => pipe

def ofPath? (s : State) (path : Octets) : Option Subject :=
  let text := Octets.toText path
  match s.workspace.find? text with
  | .ok .directory => some directory
  | .ok (.file content) =>
    some (file content.isEmpty
      ((s.workspace.place? text).toOption.any s.workspace.runnable.contains))
  | .ok (.link _) => none
  | .ok (.device (.channel descriptor)) => ofDescriptor? s descriptor
  | .ok (.device _) => some device
  | .error _ => if Outside.isProgramPath text then some (file false true) else none

def isFile : Subject → Bool
  | file _ _ => true
  | _ => false

def hasContent : Subject → Bool
  | directory => true
  | file isEmpty _ => !isEmpty
  | device | pipe => false

def isOpenToAll : Subject → Bool
  | directory => true
  | file _ canRun => canRun
  | device | pipe => false

end Subject

def isLink (s : State) (path : Octets) : Bool :=
  match s.workspace.look? (Octets.toText path) with
  | .ok (_, .link _) | .ok (_, .device (.channel _)) => true
  | _ => false

def integer (text : Octets) : Except String Int :=
  match Numeral.integer? text with
  | some n => .ok n
  | none => .error ("Illegal number: " ++ Octets.toText text)

def singleValue (s : State) (sign : String) (operand : Octets) : Except String Bool :=
  let subject := Subject.ofPath? s operand
  match sign with
  | "-n" => .ok (!operand.isEmpty)
  | "-z" => .ok operand.isEmpty
  | "-f" => .ok (subject.any Subject.isFile)
  | "-d" => .ok (subject == some .directory)
  | "-c" => .ok (subject == some .device)
  | "-p" => .ok (subject == some .pipe)
  | "-h" | "-L" => .ok (isLink s operand)
  | "-x" => .ok (subject.any Subject.isOpenToAll)
  | "-s" => .ok (subject.any Subject.hasContent)
  | "-t" => (integer operand).map fun _ => false
  | _ => .ok (["-e", "-r", "-w", "-O", "-G"].contains sign && subject.isSome)

def comparison? : String → Option (Int → Int → Bool)
  | "-eq" => some fun a b => a == b
  | "-ne" => some fun a b => a != b
  | "-lt" => some fun a b => a < b
  | "-le" => some fun a b => a ≤ b
  | "-gt" => some fun a b => b < a
  | "-ge" => some fun a b => b ≤ a
  | _ => none

/-- Two paths lead to one place. -/
def sameFile (w : Workspace) (a b : Octets) : Bool :=
  match w.place? (Octets.toText a), w.place? (Octets.toText b) with
  | .ok p, .ok q => p == q && (w.node? p).isSome
  | _, _ => false

/-- The value of an operator between two operands. Which of two files is newer is not known. -/
def doubleValue (s : State) (sign : String) (a b : Octets) : Except String Bool :=
  match sign with
  | "=" => .ok (a == b)
  | "!=" => .ok (a != b)
  | "<" => .ok (decide (a < b))
  | ">" => .ok (decide (b < a))
  | "-ef" => .ok (sameFile s.workspace a b)
  | _ =>
    match comparison? sign with
    | none => .ok false
    | some compare => do
      let m ← integer a
      let n ← integer b
      .ok (compare m n)

/-- What evaluating gives: the value and the words from the last used one on. -/
abbrev Result := Except String (Bool × List Octets)

/-- The value of the operands and the operator at the front, whose first word has some role. -/
def simple (s : State) (role : Role) (words : List Octets) : Result :=
  match role, words with
  | .finish, _ | _, [] => .ok (false, words)
  | .operator .single, sign :: operand :: rest => do
    let value ← singleValue s (Octets.toText sign) operand
    .ok (value, operand :: rest)
  | _, word :: rest =>
    match Role.ofWords rest, rest with
    | .operator .double, sign :: operand :: rest => do
      let value ← doubleValue s (Octets.toText sign) word operand
      .ok (value, operand :: rest)
    | .operator .double, sign :: [] => .error (Octets.toText sign ++ ": argument expected")
    | _, _ => .ok (!word.isEmpty, words)

mutual

def anyOf : Nat → State → Role → List Octets → Result
  | 0, _, _, _ => .error "closing paren expected"
  | fuel + 1, s, role, words => do
    let (a, rest) ← allOf fuel s role words
    if Role.ofWords (rest.drop 1) == .operator .disjunction then
      let (b, rest) ← anyOf fuel s (Role.ofWords (rest.drop 2)) (rest.drop 2)
      .ok (a || b, rest)
    else .ok (a, rest)

def allOf : Nat → State → Role → List Octets → Result
  | 0, _, _, _ => .error "closing paren expected"
  | fuel + 1, s, role, words => do
    let (a, rest) ← one fuel s role words
    if Role.ofWords (rest.drop 1) == .operator .conjunction then
      let (b, rest) ← allOf fuel s (Role.ofWords (rest.drop 2)) (rest.drop 2)
      .ok (a && b, rest)
    else .ok (a, rest)

def one : Nat → State → Role → List Octets → Result
  | 0, _, _, _ => .error "closing paren expected"
  | fuel + 1, s, role, words =>
    let next := words.drop 1
    match role, Role.ofWords next with
    | .operator .negation, .finish => .ok (true, words)
    | .operator .negation, role => do
      let (b, rest) ← one fuel s role next
      .ok (!b, rest)
    | .operator .opening, .operator .closing => .ok (false, next)
    | .operator .opening, role => do
      let (b, rest) ← anyOf fuel s role next
      if Role.ofWords (rest.drop 1) == .operator .closing then .ok (b, rest.drop 1)
      else .error "closing paren expected"
    | role, _ => simple s role words

end

def valueOf (s : State) (role : Role) (words : List Octets) : Except String Bool := do
  match ← anyOf (4 * (words.length + 1)) s role words with
  | (_, word :: _ :: _) =>
    .error ((if word.isEmpty then "" else Octets.toText word ++ ": ") ++ "unexpected operator")
  | (b, _) => .ok b

/-- The value of a list of words. In three words the middle one is an operator if it can be;
otherwise three or four words in parentheses or behind a negation are taken as that first. -/
def evaluate (s : State) : List Octets → Except String Bool
  | [] => .ok false
  | word :: rest =>
    let words := word :: rest
    if rest.length == 2 && (rest.head?.bind kind?) == some .double then valueOf s .operand words
    else if rest.length != 2 && rest.length != 3 then valueOf s (Role.ofWords words) words
    else if word == ['('] && rest.getLast? == some [')']
      then valueOf s (Role.ofWords rest.dropLast) rest.dropLast
    else if word == ['!'] then (evaluate s rest).map fun b => !b
    else valueOf s (Role.ofWords words) words

end Turnery.Shell.Condition
