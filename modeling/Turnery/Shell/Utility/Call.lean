import Turnery.Shell.Opening

/-!
# Calling utilities

Utilities are the programs for files and texts that scripts can call. They complain under the name
by which they were called, and show paths in such a way that a shell could read them back.
-/

namespace Turnery.Shell

open Turnery.Files

/-- A program for scripts, by the name that it was called by and its arguments. -/
abbrev Utility := Octets → List Octets → Act Unit

namespace Utility

def isPlain (c : Char) : Bool :=
  c.isAlphanum || "%+,-./:@_]".contains c

def isHidden (c : Char) : Bool :=
  c < ' ' || '~' < c

/-- The escape of a character that cannot be shown. -/
def hiddenSign (c : Char) : Octets :=
  match c with
  | '\t' => ['\\', 't']
  | '\n' => ['\\', 'n']
  | '\r' => ['\\', 'r']
  | c => '\\' :: List.replicate (3 - (Nat.toDigits 8 c.toNat).length) '0' ++ Nat.toDigits 8 c.toNat

/-- A path in pieces: characters that can be shown stand in quotes, the others in quotes with a
dollar sign. At most so many pieces are made. -/
def quotedPieces : Nat → Octets → Octets
  | 0, _ => []
  | more + 1, path =>
    let front := path.takeWhile fun c => !isHidden c
    let rest := path.drop front.length
    let hidden := rest.takeWhile isHidden
    let rest := rest.drop hidden.length
    let front := Octets.singleQuoted front
    if hidden.isEmpty then front
    else
      front ++ "$'".toList ++ hidden.flatMap hiddenSign ++ '\'' ::
        (if rest.isEmpty then [] else quotedPieces more rest)

def quoted (path : Octets) : String :=
  String.ofList
    (if path.contains '\'' && path.all fun c =>
      !(isHidden c || ['"', '$', '\x60', '\\', '!'].contains c) then
      '"' :: path ++ ['"']
    else quotedPieces (path.length + 1) path)

/-- A path, in quotes if it needs them. -/
def shown (path : Octets) : String :=
  if !path.isEmpty && path.all isPlain then String.ofList path else quoted path

def complain (name : Octets) (message : String) : Act Unit := do
  Act.send 2 (name ++ Octets.ofText (": " ++ message ++ "\n"))
  Act.setStatus 1

/-- Complains with a hint how to find help. -/
def refuse (name : Octets) (message : String) : Act Unit :=
  complain name (message ++ "\nTry '" ++ Octets.toText name ++ " --help' for more information.")

def lack (name : Octets) : Act Unit :=
  refuse name "missing operand"

def isInput (path : Octets) : Bool :=
  path == ['-']

def opening (s : State) (path : Octets) : Except FileError Opening :=
  if isInput path then
    match s.target? 0 with
    | some (.source number) => .ok (.shared number)
    | some (.device _) => .ok (.own .silent)
    | _ => .error .closed
  else Opening.ofPath s path

/-- The bytes that a path leads to, or the reason why it does not. What is read of the input is used
up. -/
def load (path : Octets) : Act (Except String Octets) := do
  let s ← get
  match opening s path with
  | .error e => pure (.error e.reason)
  | .ok o => do
    set (o.leave s [])
    pure (.ok (o.text s))

/-- Writes a text to what a path leads to, behind what it holds or in place of it. -/
def save (keeps : Bool) (path text : Octets) : Act (Except FileError Unit) := do
  let s := (← get).settle
  match Target.ofPath s keeps path with
  | .error e => pure (.error e)
  | .ok (target, w) => do
    set (({ s with workspace := w }.sendTo target text).settle)
    pure (.ok ())

def orInput (operands : List Octets) : List Octets :=
  if operands.isEmpty then [['-']] else operands

/-- The texts that some operands lead to, with their paths. A complaint is made about each that
leads to none. -/
def loadAll (name : Octets) : List Octets → Act (List (Octets × Octets))
  | [] => pure []
  | path :: rest => do
    match ← load path with
    | .ok text => do
      let others ← loadAll name rest
      pure ((path, text) :: others)
    | .error reason => do
      complain name (shown path ++ ": " ++ reason)
      loadAll name rest

def lines (text : Octets) : List Octets :=
  let pieces := text.splitOn '\n'
  pieces.dropLast.map (· ++ ['\n']) ++ (pieces.getLast?.filter fun last => !last.isEmpty).toList

def bareLines (text : Octets) : List Octets :=
  let pieces := text.splitOn '\n'
  if pieces.getLast? == some [] then pieces.dropLast else pieces

def unlines (lines : List Octets) : Octets :=
  lines.flatMap fun line => line ++ ['\n']

end Utility

end Turnery.Shell
