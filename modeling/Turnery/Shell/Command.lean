import Turnery.Shell.Token

/-!
# Commands

The commands of the shell language and how they are put together from tokens. A script is read one
complete command at a time, so that a fault shows only after what stands before it has been run.
-/

namespace Turnery.Shell

inductive Command where
  | nothing
  /-- Assignments and the words of a call, on a line. -/
  | simple (line : Nat) (assignments : List (Octets × Word)) (words : List Word)
  | redirected (line : Nat) (body : Command) (redirections : List Redirection)
  | pipe (first second : Command)
  | negation (body : Command)
  | both (first second : Command)
  | either (first second : Command)
  | sequence (first second : Command)
  | background (body : Command)
  | subshell (body : Command)
  | branch (test yes no : Command)
  /-- Repeats the body as long as the test succeeds, or as long as it fails. -/
  | loop (whileFails : Bool) (test body : Command)
  /-- Repeats the body for some words, or for the arguments. -/
  | each (name : Octets) (words : Option (List Word)) (body : Command)
  | choice (subject : Word) (cases : List (List Word × Command))
  | definition (name : Octets) (body : Command)

namespace Command

def andThen : Command → Command → Command
  | nothing, second => second
  | first, nothing => first
  | first, second => sequence first second

def redirect (line : Nat) (body : Command) : List Redirection → Command
  | [] => body
  | rs => redirected line body rs

end Command

structure LocatedFault where
  fault : Fault
  line : Nat

namespace Grammar

/-- What a reading function gives: what it has read and the tokens behind it. -/
abbrev Result := Except LocatedFault

/-- The complaint about the first token; where a redirection has no word, about the next one. -/
def unexpected (wanted : Option String) (tokens : List Lexeme) : LocatedFault :=
  match tokens with
  | [] => ⟨.unexpected "end of file" wanted, 0⟩
  | ⟨.fault f, line⟩ :: _ => ⟨f, line⟩
  | ⟨token, line⟩ :: rest =>
    if token.isRedirector && !rest.isEmpty then unexpected wanted rest
    else ⟨.unexpected token.name wanted, line⟩

def startsWith (text : String) : List Lexeme → Bool
  | ⟨token, _⟩ :: _ => token.bareText? == some text
  | [] => false

def startsWithOperator (text : String) : List Lexeme → Bool
  | ⟨.operator op, _⟩ :: _ => op == text
  | _ => false

def expect (text : String) (tokens : List Lexeme) : Result (Unit × List Lexeme) :=
  if startsWith text tokens then .ok ((), tokens.drop 1)
  else .error (unexpected (some (Token.quotedName text)) tokens)

def expectOperator (text : String) (tokens : List Lexeme) : Result (Unit × List Lexeme) :=
  if startsWithOperator text tokens then .ok ((), tokens.drop 1)
  else .error (unexpected (some (Token.quotedName text)) tokens)

def skipNewlines : List Lexeme → List Lexeme
  | ⟨.newline, _⟩ :: rest => skipNewlines rest
  | tokens => tokens

/-- Skips line ends and at most one semicolon in front of them. -/
def skipSeparator (tokens : List Lexeme) : List Lexeme :=
  skipNewlines (if startsWithOperator ";" tokens then tokens.drop 1 else tokens)

/-- The words that end the body of a compound command. -/
def closers : List String :=
  ["then", "else", "elif", "fi", "do", "done", "esac", "\x7d"]

def isClosed : List Lexeme → Bool
  | ⟨.word w, _⟩ :: _ => ((Token.word w).bareText?).any closers.contains
  | ⟨.operator op, _⟩ :: _ => op == ")" || op == ";;"
  | ⟨.finish, _⟩ :: _ => true
  | [] => true
  | _ => false

def isFinished : List Lexeme → Bool
  | ⟨.finish, _⟩ :: _ => true
  | [] => true
  | _ => false

def redirections : List Lexeme → List Redirection × List Lexeme
  | ⟨.redirection r, _⟩ :: rest =>
    let (others, rest) := redirections rest
    (r :: others, rest)
  | tokens => ([], tokens)

def words : List Lexeme → List Word × List Lexeme
  | ⟨.word w, _⟩ :: rest =>
    let (others, rest) := words rest
    (w :: others, rest)
  | tokens => ([], tokens)

structure Parts where
  assignments : List (Octets × Word)
  words : List Word
  redirections : List Redirection

/-- The parts at the front; assignments stand in front of the words. -/
def parts : Bool → List Lexeme → Parts × List Lexeme
  | assigning, ⟨.word w, _⟩ :: rest =>
    match Word.assignment? w with
    | some entry =>
      if assigning then
        let (p, rest) := parts true rest
        ({ p with assignments := entry :: p.assignments }, rest)
      else
        let (p, rest) := parts false rest
        ({ p with words := w :: p.words }, rest)
    | none =>
      let (p, rest) := parts false rest
      ({ p with words := w :: p.words }, rest)
  | assigning, ⟨.redirection r, _⟩ :: rest =>
    let (p, rest) := parts assigning rest
    ({ p with redirections := r :: p.redirections }, rest)
  | _, tokens => (⟨[], [], []⟩, tokens)

def simple (tokens : List Lexeme) : Result (Command × List Lexeme) :=
  let line := (tokens.head?.map Lexeme.line).getD 0
  let (p, rest) := parts true tokens
  if p.assignments.isEmpty && p.words.isEmpty && p.redirections.isEmpty then
    .error (unexpected none tokens)
  else .ok (Command.redirect line (.simple line p.assignments p.words) p.redirections, rest)

def specialNames : List String :=
  [".", ":", "break", "continue", "eval", "exec", "exit", "export", "local", "readonly", "return",
    "set", "shift", "times", "trap", "unset"]

/-- The word of a function's name and what follows the parenthesis behind it. -/
def definedWord? : List Lexeme → Option (Word × Nat × List Lexeme)
  | ⟨.word w, line⟩ :: ⟨.operator "(", _⟩ :: rest =>
    if (Word.assignment? w).isNone then some (w, line, rest) else none
  | _ => none

def functionName (w : Word) (line : Nat) : Result Octets :=
  match (Word.bare? w).filter fun name =>
    Word.isName name && !specialNames.contains (Octets.toText name) with
  | some name => .ok name
  | none => .error ⟨.badFunctionName, line⟩

/-- The patterns in front of a case, which vertical bars separate. -/
def patterns (tokens : List Lexeme) : Result (List Word × List Lexeme) :=
  match tokens with
  | ⟨.word w, _⟩ :: ⟨.operator "|", _⟩ :: rest => do
    let (others, rest) ← patterns rest
    .ok (w :: others, rest)
  | ⟨.word w, _⟩ :: rest => do
    let (_, rest) ← expectOperator ")" rest
    .ok ([w], rest)
  | _ => .error (unexpected (some (Token.quotedName ")")) tokens)

mutual

/-- Commands up to the end of a compound command's body. -/
def list : Nat → List Lexeme → Result (Command × List Lexeme)
  | 0, tokens => .error (unexpected none tokens)
  | fuel + 1, tokens =>
    let tokens := skipNewlines tokens
    if isClosed tokens then .ok (.nothing, tokens)
    else do
      let (first, rest) ← chain fuel tokens
      match rest with
      | ⟨.operator ";", _⟩ :: rest => do
        let (others, rest) ← list fuel rest
        .ok (first.andThen others, rest)
      | ⟨.operator "&", _⟩ :: rest => do
        let (others, rest) ← list fuel rest
        .ok ((Command.background first).andThen others, rest)
      | ⟨.newline, _⟩ :: rest => do
        let (others, rest) ← list fuel rest
        .ok (first.andThen others, rest)
      | rest => .ok (first, rest)

/-- A body that is not empty unless the script ends. -/
def body : Nat → List Lexeme → Result (Command × List Lexeme)
  | 0, tokens => .error (unexpected none tokens)
  | fuel + 1, tokens => do
    match ← list fuel tokens with
    | (.nothing, rest) =>
      if isFinished rest then .ok (.nothing, rest) else .error (unexpected none rest)
    | result => .ok result

/-- Pipelines that hang on each other's success. -/
def chain : Nat → List Lexeme → Result (Command × List Lexeme)
  | 0, tokens => .error (unexpected none tokens)
  | fuel + 1, tokens => do
    let (first, rest) ← pipeline fuel tokens
    links fuel first rest

def links : Nat → Command → List Lexeme → Result (Command × List Lexeme)
  | 0, first, tokens => .ok (first, tokens)
  | fuel + 1, first, tokens =>
    match tokens with
    | ⟨.operator "&&", _⟩ :: rest => do
      let (second, rest) ← pipeline fuel (skipNewlines rest)
      links fuel (.both first second) rest
    | ⟨.operator "||", _⟩ :: rest => do
      let (second, rest) ← pipeline fuel (skipNewlines rest)
      links fuel (.either first second) rest
    | _ => .ok (first, tokens)

/-- Commands whose outputs are the inputs of the next. -/
def pipeline : Nat → List Lexeme → Result (Command × List Lexeme)
  | 0, tokens => .error (unexpected none tokens)
  | fuel + 1, tokens =>
    if startsWith "!" tokens then do
      let rest := tokens.drop 1
      if startsWith "!" rest then throw (unexpected none rest)
      let (command, rest) ← pipeline fuel rest
      .ok (.negation command, rest)
    else do
      let (first, rest) ← command fuel tokens
      if startsWithOperator "|" rest then do
        let (second, rest) ← pipeline fuel (skipNewlines (rest.drop 1))
        .ok (.pipe first second, rest)
      else .ok (first, rest)

def command : Nat → List Lexeme → Result (Command × List Lexeme)
  | 0, tokens => .error (unexpected none tokens)
  | fuel + 1, tokens =>
    if startsWithOperator "(" tokens then do
      let (inner, rest) ← body fuel (tokens.drop 1)
      let (_, rest) ← expectOperator ")" rest
      let (rs, rest) := redirections rest
      .ok (Command.redirect ((tokens.head?.map Lexeme.line).getD 0) (.subshell inner) rs, rest)
    else
      match tokens.head?.bind fun l =>
        (l.token.bareText?).filter Token.reserved.contains, definedWord? tokens with
      | some word, _ => do
        let (inner, rest) ← compound fuel word tokens
        let (rs, rest) := redirections rest
        .ok (Command.redirect ((tokens.head?.map Lexeme.line).getD 0) inner rs, rest)
      | none, some (w, line, rest) => do
        let (_, rest) ← expectOperator ")" rest
        let name ← functionName w line
        let (command, rest) ← command fuel (skipNewlines rest)
        .ok (.definition name command, rest)
      | none, none => simple tokens

def compound : Nat → String → List Lexeme → Result (Command × List Lexeme)
  | 0, _, tokens => .error (unexpected none tokens)
  | fuel + 1, word, tokens =>
    let rest := tokens.drop 1
    match word with
    | "if" => branch fuel rest
    | "while" => loop fuel false rest
    | "until" => loop fuel true rest
    | "for" => each fuel rest
    | "case" => choice fuel rest
    | "\x7b" => do
      let (inner, rest) ← body fuel rest
      let (_, rest) ← expect "\x7d" rest
      .ok (inner, rest)
    | _ => .error (unexpected none tokens)

/-- A branch, behind its first word. -/
def branch : Nat → List Lexeme → Result (Command × List Lexeme)
  | 0, tokens => .error (unexpected none tokens)
  | fuel + 1, tokens => do
    let (test, rest) ← body fuel tokens
    let (_, rest) ← expect "then" rest
    let (yes, rest) ← body fuel rest
    if startsWith "elif" rest then do
      let (no, rest) ← branch fuel (rest.drop 1)
      .ok (.branch test yes no, rest)
    else if startsWith "else" rest then do
      let (no, rest) ← body fuel (rest.drop 1)
      let (_, rest) ← expect "fi" rest
      .ok (.branch test yes no, rest)
    else do
      let (_, rest) ← expect "fi" rest
      .ok (.branch test yes .nothing, rest)

/-- A loop, behind its first word. -/
def loop : Nat → Bool → List Lexeme → Result (Command × List Lexeme)
  | 0, _, tokens => .error (unexpected none tokens)
  | fuel + 1, whileFails, tokens => do
    let (test, rest) ← body fuel tokens
    let (_, rest) ← expect "do" rest
    let (inner, rest) ← body fuel rest
    let (_, rest) ← expect "done" rest
    .ok (.loop whileFails test inner, rest)

/-- A loop over words, behind its first word. -/
def each : Nat → List Lexeme → Result (Command × List Lexeme)
  | 0, tokens => .error (unexpected none tokens)
  | fuel + 1, tokens =>
    match tokens with
    | ⟨.word w, line⟩ :: rest => do
      let name := Word.plainText w
      if !Word.isName name then throw ⟨.badLoopName, line⟩
      let afterName := skipNewlines rest
      let (ws, rest) := if startsWith "in" afterName then
          let (ws, rest) := words (afterName.drop 1)
          (some ws, rest)
        else (none, rest)
      let (_, rest) ← expect "do" (skipSeparator rest)
      let (inner, rest) ← body fuel rest
      let (_, rest) ← expect "done" rest
      .ok (.each name ws inner, rest)
    | ⟨_, line⟩ :: _ => .error ⟨.badLoopName, line⟩
    | [] => .error (unexpected none tokens)

def choice : Nat → List Lexeme → Result (Command × List Lexeme)
  | 0, tokens => .error (unexpected none tokens)
  | fuel + 1, tokens =>
    match tokens with
    | ⟨.word subject, _⟩ :: rest => do
      let (_, rest) ← expect "in" (skipNewlines rest)
      let (cs, rest) ← cases fuel (skipNewlines rest)
      .ok (.choice subject cs, rest)
    | _ => .error (unexpected none tokens)

def cases : Nat → List Lexeme → Result (List (List Word × Command) × List Lexeme)
  | 0, tokens => .error (unexpected none tokens)
  | fuel + 1, tokens =>
    if startsWith "esac" tokens then .ok ([], tokens.drop 1)
    else do
      let (ps, rest) ← patterns (if startsWithOperator "(" tokens then tokens.drop 1 else tokens)
      let (inner, rest) ← list fuel rest
      if startsWithOperator ";;" rest then do
        let (others, rest) ← cases fuel (skipNewlines (rest.drop 1))
        .ok ((ps, inner) :: others, rest)
      else do
        let rest ← if startsWith "esac" rest then .ok (rest.drop 1)
          else .error (unexpected (some (Token.quotedName ";;")) rest)
        .ok ([(ps, inner)], rest)

end

/-- The steps that reading some tokens may take. -/
def fuelFor (tokens : List Lexeme) : Nat :=
  10 * (tokens.length + 1)

def line : Nat → List Lexeme → Result (Command × List Lexeme)
  | 0, tokens => .error (unexpected none tokens)
  | fuel + 1, tokens => do
    let (first, rest) ← chain (fuelFor tokens) tokens
    match rest with
    | ⟨.operator ";", _⟩ :: rest => further fuel first rest
    | ⟨.operator "&", _⟩ :: rest => further fuel (.background first) rest
    | ⟨.newline, _⟩ :: rest => .ok (first, rest)
    | ⟨.finish, _⟩ :: _ => .ok (first, rest)
    | _ => .error (unexpected none rest)
where
  further (fuel : Nat) (first : Command) (rest : List Lexeme) : Result (Command × List Lexeme) :=
    match rest with
    | ⟨.newline, _⟩ :: rest => .ok (first, rest)
    | ⟨.finish, _⟩ :: _ => .ok (first, rest)
    | _ => do
      let (others, rest) ← line fuel rest
      .ok (first.andThen others, rest)

/-- The next complete command of a script; none at its end. -/
def next (tokens : List Lexeme) : Except LocatedFault (Option (Command × List Lexeme)) :=
  let tokens := skipNewlines tokens
  match tokens with
  | [] => .ok none
  | ⟨.finish, _⟩ :: _ => .ok none
  | _ => (line (tokens.length + 1) tokens).map some

end Grammar

end Turnery.Shell
