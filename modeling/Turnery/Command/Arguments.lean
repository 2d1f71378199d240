import Turnery.Number.Literal

/-!
# Arguments

The words of a command line are read from left to right. A level of the command line knows some
options, takes a number of operands and may know commands; a command ends the level, and the words
behind it belong to the level of that command. An option that asks for help or for the version ends
the reading where it is met.
-/

namespace Turnery.Command

/-- Why the reading of a command line ends without a request. -/
inductive Stop where
  | misuse
  | help
  | version
  deriving DecidableEq, Repr

/-- What an option means and which values it takes. -/
inductive OptionKind where
  | flag
  /-- The value is a path, which is not empty. -/
  | path
  | text
  | number
  | help
  | version
  deriving DecidableEq, Repr

namespace OptionKind

def takesValue : OptionKind → Bool
  | path | text | number => true
  | flag | help | version => false

def accepts (kind : OptionKind) (value : String) : Bool :=
  match kind with
  | path => value != ""
  | number => (Number.float? value.toList).isSome
  | _ => true

end OptionKind

/-- An option, written with two hyphens and its name or with one hyphen and its letter. -/
structure OptionRule where
  name : String
  letter : Option Char
  kind : OptionKind
  repeatable : Bool
  deriving DecidableEq, Repr

/-- What a level of the command line knows. -/
structure Level where
  rules : List OptionRule
  operandCount : Nat
  commands : List String

namespace Level

def named? (level : Level) (name : String) : Option OptionRule :=
  level.rules.find? fun rule => rule.name == name

def lettered? (level : Level) (letter : Char) : Option OptionRule :=
  level.rules.find? fun rule => rule.letter == some letter

end Level

/-- What has been given at one level. -/
structure Given where
  /-- The options with their values, in order; a flag has the empty value. -/
  options : List (String × String)
  operands : List String
  /-- The command and the words behind it. -/
  command : Option (String × List String)

namespace Given

def nothing : Given := ⟨[], [], none⟩

def values (given : Given) (name : String) : List String :=
  (given.options.filter fun entry => entry.1 == name).map Prod.snd

/-- The value of an option that is given at most once. -/
def value? (given : Given) (name : String) : Option String :=
  (given.values name).head?

def number? (given : Given) (name : String) : Option Float :=
  (given.value? name).bind fun value => Number.float? value.toList

def hasFlag (given : Given) (name : String) : Bool :=
  !(given.values name).isEmpty

def addOption (given : Given) (rule : OptionRule) (value : String) : Except Stop Given :=
  match rule.kind with
  | .help => .error .help
  | .version => .error .version
  | kind =>
    if kind.accepts value && (rule.repeatable || !given.hasFlag rule.name) then
      .ok { given with options := given.options ++ [(rule.name, value)] }
    else .error .misuse

/-- One more operand. Operands are paths. -/
def addOperand (given : Given) (level : Level) (operand : String) : Except Stop Given :=
  if operand != "" && given.operands.length < level.operandCount then
    .ok { given with operands := given.operands ++ [operand] }
  else .error .misuse

/-- All that the level wants has been given. -/
def isComplete (given : Given) (level : Level) : Bool :=
  given.operands.length == level.operandCount && (level.commands.isEmpty || given.command.isSome)

end Given

inductive Word where
  /-- Two hyphens: all words behind are operands. -/
  | escape
  | long (name : String) (value : Option String)
  | letters (cluster : List Char)
  | plain (text : String)
  deriving DecidableEq, Repr

namespace Word

/-- The form of a word. A single hyphen is a plain word. -/
def ofText (text : String) : Word :=
  match text.toList with
  | ['-', '-'] => escape
  | '-' :: '-' :: rest =>
    let name := rest.takeWhile (· != '=')
    long (String.ofList name) (match rest.drop name.length with
      | [] => none
      | _ :: value => some (String.ofList value))
  | '-' :: letter :: rest => letters (letter :: rest)
  | _ => plain text

def isPlain : Word → Bool
  | plain _ => true
  | _ => false

end Word

/-- What has been given after a word, and the option that waits for its value in the next word. -/
abbrev Step := Except Stop (Given × Option OptionRule)

def readLong (level : Level) (given : Given) (name : String) (value : Option String) : Step :=
  match level.named? name with
  | none => .error .misuse
  | some rule =>
    match rule.kind.takesValue, value with
    | true, none => .ok (given, some rule)
    | true, some value => (given.addOption rule value).map (·, none)
    | false, none => (given.addOption rule "").map (·, none)
    | false, some _ => .error .misuse

/-- Reads options by their letters. What follows the letter of an option with a value is the value,
which an equals sign may precede. -/
def readLetters (level : Level) (given : Given) : List Char → Step
  | [] => .ok (given, none)
  | letter :: rest =>
    match level.lettered? letter with
    | none => .error .misuse
    | some rule =>
      if rule.kind.takesValue then
        match rest with
        | [] => .ok (given, some rule)
        | '=' :: value => (given.addOption rule (String.ofList value)).map (·, none)
        | value => (given.addOption rule (String.ofList value)).map (·, none)
      else
        match given.addOption rule "" with
        | .error stop => .error stop
        | .ok given => readLetters level given rest

/-- Reads words that are operands, whatever their form. -/
def readOperands (level : Level) (given : Given) (words : List String) : Except Stop Given :=
  words.foldlM (fun given word => given.addOperand level word) given

/-- Reads the words of a level. The value of an option that has to be given in a word of its own is
a plain word. -/
def readWords (level : Level) (given : Given) : List String → Except Stop Given
  | [] => .ok given
  | word :: rest =>
    if level.commands.contains word then .ok { given with command := some (word, rest) }
    else
      let step : Step := match Word.ofText word with
        | .long name value => readLong level given name value
        | .letters cluster => readLetters level given cluster
        | .plain text => (given.addOperand level text).map (·, none)
        | .escape => .ok (given, none)
      match step with
      | .error stop => .error stop
      | .ok (given, none) =>
        if Word.ofText word == .escape then readOperands level given rest
        else readWords level given rest
      | .ok (given, some rule) =>
        match rest with
        | [] => .error .misuse
        | value :: rest =>
          if (Word.ofText value).isPlain then
            match given.addOption rule value with
            | .error stop => .error stop
            | .ok given => readWords level given rest
          else .error .misuse

def Level.read (level : Level) (words : List String) : Except Stop Given := do
  let given ← readWords level .nothing words
  if given.isComplete level then .ok given else .error .misuse

end Turnery.Command
