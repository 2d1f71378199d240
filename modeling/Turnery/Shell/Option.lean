import Turnery.Shell.Numeral
import Turnery.Shell.State

/-!
# Options and numbers of built-in commands

The options of a built-in command are letters behind a hyphen; two hyphens end them. A letter that
the command does not know ends the command, as does a number that is none.
-/

namespace Turnery.Shell.Builtin

/-- The letters of the options among arguments and what follows them, or a letter that is not
known. -/
def readOptions (known : String) : List Octets → Except Char (List Char × List Octets)
  | ['-', '-'] :: rest => .ok ([], rest)
  | ('-' :: c :: letters) :: rest =>
    match (c :: letters).find? fun letter => !known.contains letter with
    | some letter => .error letter
    | none => (readOptions known rest).map fun (others, rest) => (c :: letters ++ others, rest)
  | rest => .ok ([], rest)

/-- The letters of the options of a command and what follows them. -/
def options (known : String) (arguments : List Octets) : Act (List Char × List Octets) :=
  match readOptions known arguments with
  | .ok answer => pure answer
  | .error letter => Act.fail ("Illegal option -" ++ String.singleton letter)

/-- A number given to a command, or the complaint about it. -/
def number (text : Octets) : Act Nat :=
  match Numeral.natural? text with
  | some n => pure n
  | none => Act.fail ("Illegal number: " ++ Octets.toText text)

end Turnery.Shell.Builtin
