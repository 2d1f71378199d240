import Turnery.Command.Arguments
import Turnery.Gcode.Turning

/-!
# Requests

What a command line asks for. The options for the settings file and for the form of the log are
known at every level; where both levels name a settings file, the inner one counts.
-/

namespace Turnery.Command

inductive Task where
  /-- Reports what a drawing holds, on request with all points. -/
  | describe (drawing : String) (listPoints : Bool)
  /-- Makes a program of a drawing and writes it to a file or shows it. -/
  | generate (drawing : String) (output : Option String) (specs : List String)
    (given : Gcode.Turning.Adjustment)
  /-- Replays a program. -/
  | simulate (program : String) (speed : Option Float)
  | showSettings
  /-- Writes the standard settings unless there are some. -/
  | createSettings

/-- A task and the settings file named for it. -/
structure Request where
  settingsFile : Option String
  task : Task

namespace Request

/-- The options that every level knows. -/
def commonRules : List OptionRule :=
  [⟨"config", some 'c', .path, false⟩, ⟨"log-json", none, .flag, false⟩,
    ⟨"help", some 'h', .help, false⟩]

def topLevel : Level where
  rules := ⟨"version", some 'V', .version, false⟩ :: commonRules
  operandCount := 0
  commands := ["import", "generate", "simulate", "config", "help"]

def importLevel : Level where
  rules := ⟨"verbose", some 'v', .flag, false⟩ :: commonRules
  operandCount := 1
  commands := []

def generateLevel : Level where
  rules :=
    [⟨"output", some 'o', .path, false⟩, ⟨"tool", some 't', .text, true⟩,
      ⟨"feed", none, .number, false⟩, ⟨"spindle", none, .number, false⟩,
      ⟨"scale", none, .number, false⟩] ++ commonRules
  operandCount := 1
  commands := []

def simulateLevel : Level where
  rules := ⟨"speed", some 's', .number, false⟩ :: commonRules
  operandCount := 1
  commands := []

def configLevel : Level where
  rules := ⟨"init", none, .flag, false⟩ :: commonRules
  operandCount := 0
  commands := []

def ofCommand (outerFile : Option String) (level : Level) (words : List String)
    (task : Given → String → Task) :
    Except Stop Request :=
  match level.read words with
  | .error stop => .error stop
  | .ok given => .ok ⟨(given.value? "config").or outerFile, task given (given.operands.headD "")⟩

/-- Help is asked for as a whole or for one command. -/
def readHelp (words : List String) : Stop :=
  match words with
  | [] => .help
  | [command] => if topLevel.commands.contains command then .help else .misuse
  | _ => .misuse

def readCommand (file : Option String) (command : String) (words : List String) :
    Except Stop Request :=
  match command with
  | "import" => ofCommand file importLevel words fun given drawing =>
    .describe drawing (given.hasFlag "verbose")
  | "generate" => ofCommand file generateLevel words fun given drawing =>
      .generate drawing (given.value? "output") (given.values "tool")
        ⟨given.number? "feed", given.number? "spindle", given.number? "scale"⟩
  | "simulate" => ofCommand file simulateLevel words fun given program =>
    .simulate program (given.number? "speed")
  | "config" => ofCommand file configLevel words fun given _ =>
      if given.hasFlag "init" then .createSettings else .showSettings
  | _ => .error (readHelp words)

def parse (words : List String) : Except Stop Request :=
  match topLevel.read words with
  | .error stop => .error stop
  | .ok given =>
    match given.command with
    | none => .error .misuse
    | some (command, rest) => readCommand (given.value? "config") command rest

end Request

end Turnery.Command
