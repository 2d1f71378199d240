import Turnery.Shell.Utility.Choice

/-!
# The system

What the system says of itself, of its user and of the time. The clock begins when a script does.
-/

namespace Turnery.Shell.Utility

open Turnery.Files

def systemName : Utility :=
  choosing ⟨"ainmoprsv", "", [("kernel-name", 's'), ("operating-system", 'o'), ("machine", 'm')],
      false⟩ 1 fun _ c =>
    Act.send 1 (Octets.ofText (if c.has 'm' then "x86_64\n" else if c.has 'o' then "GNU/Linux\n"
      else "Linux\n"))

def userName : Utility :=
  plain fun _ _ => Act.send 1 "root\n".toList

/-- Shows the number or the name of the user. -/
def identity : Utility :=
  choosing ⟨"agGnruz", "", [("user", 'u'), ("group", 'g'), ("name", 'n')], false⟩ 1 fun _ c =>
    Act.send 1 (Octets.ofText
      (if c.has 'n' then "root\n"
      else if c.has 'u' || c.has 'g' || c.has 'G' then "0\n"
      else "uid=0(root) gid=0(root) groups=0(root)\n"))

def workDirectory : Utility :=
  plain fun _ _ => do
    let s ← get
    Act.send 1 (Octets.ofText (Path.ofSteps s.workspace.home ++ "\n"))

/-- Shows the values of variables that programs are told of, or all of them with their names. -/
def printVariables : Utility :=
  choosing ⟨"0", "", [("null", '0')], true⟩ 2 fun _ c => do
    let s ← get
    let names := c.operands
    let told := s.bindings.filter fun entry => s.marks.exported.contains entry.1
    if names.isEmpty then
      Act.send 1 (told.flatMap fun (name, value) => name ++ '=' :: value ++ ['\n'])
    else
      names.forM fun name =>
        match told.lookup name with
        | some value => Act.send 1 (value ++ ['\n'])
        | none => Act.setStatus 1

namespace Clock

def two (n : Nat) : Octets :=
  Number.lastDigits 2 n

/-- The text of a directive, on the first day of the clock. -/
def directive (millis : Nat) (c : Char) : Octets :=
  let seconds := millis / 1000
  let time :=
    two (seconds / 3600 % 24) ++ ':' :: two (seconds / 60 % 60) ++ ':' :: two (seconds % 60)
  match c with
  | 'Y' => "1970".toList
  | 'm' | 'd' => ['0', '1']
  | 'H' => two (seconds / 3600 % 24)
  | 'M' => two (seconds / 60 % 60)
  | 'S' => two (seconds % 60)
  | 's' => Number.digits seconds
  | 'N' => Number.lastDigits 3 (millis % 1000) ++ "000000".toList
  | 'F' => "1970-01-01".toList
  | 'T' => time
  | '%' => ['%']
  | c => ['%', c]

def filled (millis : Nat) : Octets → Octets
  | '%' :: c :: rest => directive millis c ++ filled millis rest
  | c :: rest => c :: filled millis rest
  | [] => []

end Clock

def date : Utility :=
  choosing ⟨"Ru", "dIr", [("utc", 'u'), ("date", 'd')], false⟩ 1 fun name c => do
    let s ← get
    match c.operands with
    | [] => Act.send 1 (Clock.filled s.now "Thu Jan  1 %T UTC %Y\n".toList)
    | ('+' :: format) :: _ => Act.send 1 (Clock.filled s.now format ++ ['\n'])
    | other :: _ => complain name ("invalid date " ++ quoted other)

end Turnery.Shell.Utility
