import Turnery.Shell.Utility.Call

/-!
# Choices

The arguments of a utility are options and operands. An option is a letter behind a hyphen, or a
word behind two; some take a value. Options may stand among the operands unless the first operand
ends them, and two hyphens end them always.
-/

namespace Turnery.Shell.Utility

structure Vocabulary where
  /-- The letters without a value. -/
  flags : String
  /-- The letters with a value; those that are among the others too may have one. -/
  valued : String
  /-- The words, with the letters that they stand for. -/
  words : List (String × Char)
  /-- The first operand ends the options. -/
  isOrdered : Bool

/-- What was chosen: letters with their values in order, and the operands. -/
structure Choices where
  options : List (Char × Octets)
  operands : List Octets

namespace Choices

def has (c : Choices) (letter : Char) : Bool :=
  c.options.any fun option => option.1 == letter

def value? (c : Choices) (letter : Char) : Option Octets :=
  (c.options.filter fun option => option.1 == letter).getLast?.map Prod.snd

def values (c : Choices) (letter : Char) : List Octets :=
  (c.options.filter fun option => option.1 == letter).map Prod.snd

def last? (c : Choices) (letters : String) : Option Char :=
  (c.options.filter fun option => letters.contains option.1).getLast?.map Prod.fst

def choose (letter : Char) (value : Octets) (c : Choices) : Choices :=
  { c with options := (letter, value) :: c.options }

def operate (operand : Octets) (c : Choices) : Choices :=
  { c with operands := operand :: c.operands }

end Choices

/-- The letters that stand for the words all utilities know: a request for help, and one for the
version. -/
def requests : List (String × Char) := [("help", '\x01'), ("version", '\x02')]

/-- An option whose value is to follow: its letter, and the complaint if nothing follows. -/
abbrev Pending := Option (Char × String)

def Vocabulary.letters (v : Vocabulary) : Octets → Except String (List (Char × Octets) × Pending)
  | [] => .ok ([], none)
  | c :: rest =>
    if v.valued.contains c && v.flags.contains c then .ok ([(c, rest)], none)
    else if v.valued.contains c then
      if rest.isEmpty then
        .ok ([], some (c, "option requires an argument -- '" ++ String.singleton c ++ "'"))
      else .ok ([(c, rest)], none)
    else if v.flags.contains c then
      (v.letters rest).map fun (options, pending) => ((c, []) :: options, pending)
    else .error ("invalid option -- '" ++ String.singleton c ++ "'")

/-- The letter that a word stands for; the word may be cut short as long as it is clear. -/
def Vocabulary.letter? (v : Vocabulary) (word : String) : Option Char :=
  let known := v.words ++ requests
  let begun := known.filter fun entry => word.toList.isPrefixOf entry.1.toList
  match known.lookup word, begun with
  | some letter, _ => some letter
  | none, (_, letter) :: others =>
    if others.all fun entry => entry.2 == letter then some letter else none
  | none, [] => none

/-- The option in a word, which an equals sign may divide from its value. -/
def Vocabulary.word (v : Vocabulary) (text : Octets) :
    Except String (List (Char × Octets) × Pending) :=
  let word := text.takeWhile (· != '=')
  let named (complaint : String) := "option '--" ++ Octets.toText word ++ "' " ++ complaint
  match v.letter? (Octets.toText word), text.drop word.length with
  | none, _ => .error ("unrecognized option '--" ++ Octets.toText text ++ "'")
  | some c, '=' :: value =>
    if v.valued.contains c then .ok ([(c, value)], none)
    else .error (named "doesn't allow an argument")
  | some c, _ =>
    if v.valued.contains c && !v.flags.contains c then
      .ok ([], some (c, named "requires an argument"))
    else .ok ([(c, [])], none)

def Vocabulary.readFrom (v : Vocabulary) : Pending → List Octets → Except String Choices
  | some (letter, _), value :: rest => (v.readFrom none rest).map (Choices.choose letter value)
  | some (_, complaint), [] => .error complaint
  | none, [] => .ok ⟨[], []⟩
  | none, argument :: rest => do
    match argument with
    | ['-', '-'] => .ok ⟨[], rest⟩
    | '-' :: '-' :: word =>
      let (options, pending) ← v.word word
      (v.readFrom pending rest).map fun c => { c with options := options ++ c.options }
    | '-' :: c :: others =>
      let (options, pending) ← v.letters (c :: others)
      (v.readFrom pending rest).map fun c => { c with options := options ++ c.options }
    | operand =>
      if v.isOrdered then .ok ⟨[], operand :: rest⟩
      else (v.readFrom none rest).map (Choices.operate operand)

def Vocabulary.read (v : Vocabulary) (arguments : List Octets) : Except String Choices :=
  v.readFrom none arguments

/-- Does something with the choices in some arguments, or something else with the complaint if they
cannot be read. -/
def choosingOr (v : Vocabulary) (reject : Octets → String → Act Unit)
    (use : Octets → Choices → Act Unit) : Utility :=
  fun name arguments =>
    match v.read arguments with
    | .ok choices =>
      if requests.any fun entry => choices.has entry.2 then pure () else use name choices
    | .error message => reject name message

/-- Does something with the choices in some arguments. If they cannot be read, the utility fails
with a status. -/
def choosing (v : Vocabulary) (failure : Nat) (use : Octets → Choices → Act Unit) : Utility :=
  choosingOr v (fun name message => do
    refuse name message
    Act.setStatus failure) use

def plain (use : Octets → List Octets → Act Unit) : Utility :=
  choosing ⟨"", "", [], false⟩ 1 fun name c => use name c.operands

/-- A number of lines, bytes or seconds, with a letter behind it that multiplies it. -/
def size? (text : Octets) : Option Nat :=
  let digits := text.takeWhile Char.isDigit
  let factor? := match String.ofList (text.drop digits.length) with
    | "" => some 1
    | "b" => some 512
    | "k" | "K" | "KiB" => some 1024
    | "kB" | "KB" => some 1000
    | "M" | "MiB" => some (1024 * 1024)
    | "MB" => some (1000 * 1000)
    | _ => none
  if digits.isEmpty then none else factor?.map fun factor => Number.natOfDigits digits * factor

end Turnery.Shell.Utility
