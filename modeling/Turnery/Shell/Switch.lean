import Turnery.Shell.State

/-!
# Switches

The switches of the shell have letters and names. Some change how commands are run; the others are
only remembered.
-/

namespace Turnery.Shell.Switch

/-- The switches by letter, if they have one, and name, in the order in which they are listed. -/
def all : List (Option Char × String) :=
  [(some 'e', "errexit"), (some 'f', "noglob"), (some 'I', "ignoreeof"), (some 'i', "interactive"),
    (some 'm', "monitor"), (some 'n', "noexec"), (some 's', "stdin"), (some 'x', "xtrace"),
    (some 'v', "verbose"), (some 'V', "vi"), (some 'E', "emacs"), (some 'C', "noclobber"),
    (some 'a', "allexport"), (some 'b', "notify"), (some 'u', "nounset"), (some 'p', "privileged"),
    (none, "nolog"), (none, "debug")]

def nameOf? (letter : Char) : Option String :=
  (all.find? fun entry => entry.1 == some letter).map Prod.snd

def isName (name : String) : Bool :=
  all.any fun entry => entry.2 == name

/-- The letters of the switches that are on, the last listed first. -/
def letters (s : State) : Octets :=
  ((all.filter fun entry => s.has entry.2).filterMap Prod.fst).reverse

def turn (s : State) (on : Bool) (name : String) : State :=
  let others := s.switches.filter fun other => other != name
  { s with switches := if on then name :: others else others }

/-- The list of all switches, either for reading or as commands. -/
def listing (s : State) (readable : Bool) : String :=
  let line (name : String) : String :=
    let isOn := s.has name
    let gap := String.ofList (List.replicate (16 - name.length) ' ')
    if readable then name ++ gap ++ (if isOn then "on" else "off") ++ "\n"
    else "set " ++ (if isOn then "-o " else "+o ") ++ name ++ "\n"
  (if readable then "Current option settings\n" else "") ++
    String.join (all.map fun entry => line entry.2)

/-- Turns a switch. Jobs cannot be controlled without a terminal, so that switch stays off. -/
def put (on : Bool) (name : String) : Act Unit :=
  if on && name == "monitor" then Act.complain "can't access tty; job control turned off"
  else modify fun s => turn s on name

/-- Turns the switches of letters. One letter asks for a name among the arguments; the arguments
that are left are the answer. -/
def turnLetters (on : Bool) : List Char → List Octets → Act (List Octets)
  | [], arguments => pure arguments
  | 'o' :: letters, [] => do
    Act.send 1 (Octets.ofText (listing (← get) on))
    turnLetters on letters []
  | 'o' :: letters, name :: rest => do
    let text := Octets.toText name
    if isName text then put on text
    else Act.fail ("Illegal option -o " ++ text)
    turnLetters on letters rest
  | letter :: letters, arguments => do
    match nameOf? letter with
    | some name => put on name
    | none => Act.fail ("Illegal option -" ++ String.singleton letter)
    turnLetters on letters arguments

/-- The state with new arguments, of which no options have been read. -/
def withArguments (s : State) (arguments : List Octets) : State :=
  { s with arguments := arguments, optionPlace := ⟨1, none⟩ }

/-- Turns switches as long as arguments ask for it; what follows them becomes the arguments, unless
there is nothing. At most so many arguments are looked at. -/
def settle : Nat → List Octets → Act Unit
  | 0, _ => pure ()
  | more + 1, arguments =>
    match arguments with
    | [] => pure ()
    | ['-'] :: rest => do
      modify fun s => turn (turn s false "xtrace") false "verbose"
      if rest.isEmpty then pure () else modify fun s => withArguments s rest
    | ['-', '-'] :: rest => modify fun s => withArguments s rest
    | ('-' :: letters) :: rest => do settle more (← turnLetters true letters rest)
    | ('+' :: letters) :: rest => do settle more (← turnLetters false letters rest)
    | arguments => modify fun s => withArguments s arguments

end Turnery.Shell.Switch
