import Turnery.Number.Digits
import Turnery.Shell.Word

/-!
# Tokens

A script is a sequence of words, operators, redirections and line ends. An inner document is written
in the lines behind its own; it is filled in when its line ends. A fault ends the sequence, so that
what stands before it still runs.
-/

namespace Turnery.Shell

inductive Redirection where
  | input (descriptor : Nat) (path : Word)
  /-- A file that exists may be kept from being written anew, unless that is wanted. -/
  | output (descriptor : Nat) (wanted : Bool) (path : Word)
  | append (descriptor : Nat) (path : Word)
  | duplicate (descriptor : Nat) (source : Word)
  | document (descriptor : Nat) (text : Word)

inductive Token where
  | word (w : Word)
  | operator (text : String)
  | redirection (r : Redirection)
  | newline
  | finish
  | fault (f : Fault)

structure Lexeme where
  token : Token
  line : Nat

namespace Token

/-- The operators, a longer one before its beginnings. -/
def operators : List String :=
  ["&&", "||", ";;", "&", ";", "|", "(", ")"]

/-- The operators of redirections, a longer one before its beginnings. -/
def redirectors : List String :=
  ["<<-", "<<", "<&", "<>", "<", ">>", ">&", ">|", ">"]

/-- The first of some texts with which a text begins, and the rest. -/
def leading? (candidates : List String) (text : Octets) : Option (String × Octets) :=
  (candidates.find? fun c => c.toList.isPrefixOf text).map fun c => (c, text.drop c.length)

/-- An inner document whose lines are still to come. -/
structure Pending where
  /-- The number of the token. -/
  place : Nat
  descriptor : Nat
  mark : Octets
  quoted : Bool
  /-- Tabs at the beginning of its lines do not count. -/
  dropsTabs : Bool

/-- The lines up to the mark, and the rest. The document may end with the script. -/
def documentLines : Nat → Pending → Octets → Octets × Octets
  | 0, _, text => ([], text)
  | fuel + 1, p, text =>
    if text.isEmpty then ([], [])
    else
      let whole := text.takeWhile (· != '\n')
      let rest := text.drop (whole.length + 1)
      let line := if p.dropsTabs then whole.dropWhile (· == '\t') else whole
      if line == p.mark then ([], rest)
      else if whole.length == text.length then (line, [])
      else
        let (others, rest) := documentLines fuel p rest
        (line ++ '\n' :: others, rest)

def ofDocument (p : Pending) (text : Octets) : Token :=
  let word := if p.quoted then .ok [.literal text true] else Word.ofText .document text
  match word with
  | .ok word => .redirection (.document p.descriptor word)
  | .error f => .fault f

/-- Fills in the inner documents that are pending where their line ends; the rest is what follows
them. -/
def fillIn (tokens : Array Lexeme) : List Pending → Octets → Array Lexeme × Octets
  | [], rest => (tokens, rest)
  | p :: others, text =>
    let (body, rest) := documentLines (text.length + 1) p text
    fillIn (tokens.modify p.place fun l => { l with token := ofDocument p body }) others rest

def redirect (operator : String) (descriptor : Option Nat) (word : Word) : Redirection :=
  match operator with
  | "<" => .input (descriptor.getD 0) word
  | "<&" => .duplicate (descriptor.getD 0) word
  | ">&" => .duplicate (descriptor.getD 1) word
  | ">>" => .append (descriptor.getD 1) word
  | "<>" => .input (descriptor.getD 0) word
  | operator => .output (descriptor.getD 1) (operator == ">|") word

def isBlank (c : Char) : Bool :=
  c == ' ' || c == '\t'

/-- The number in front of a redirection, if there is one, and the text behind it. -/
def splitDescriptor (text : Octets) : Option Nat × Octets :=
  let ds := text.takeWhile Char.isDigit
  let rest := text.drop ds.length
  match rest with
  | '<' :: _ | '>' :: _ => if ds.isEmpty then (none, text) else (some (Number.natOfDigits ds), rest)
  | _ => (none, text)

/-- How many line ends lie between a text and its rest. -/
def linesBetween (text rest : Octets) : Nat :=
  (text.take (text.length - rest.length)).count '\n'

/-- Reads tokens; the tokens so far and the pending inner documents are carried along. -/
def scan : Nat → Nat → List Pending → Array Lexeme → Octets → Array Lexeme
  | 0, line, _, tokens, _ => tokens.push ⟨.finish, line⟩
  | fuel + 1, line, pending, tokens, text =>
    match text with
    | [] => (fillIn tokens pending []).1.push ⟨.finish, line⟩
    | '\\' :: '\n' :: rest => scan fuel (line + 1) pending tokens rest
    | '\n' :: rest =>
      let (tokens, after) := fillIn (tokens.push ⟨.newline, line⟩) pending rest
      scan fuel (line + 1 + linesBetween rest after) [] tokens after
    | '#' :: rest => scan fuel line pending tokens (rest.dropWhile (· != '\n'))
    | c :: rest =>
      if isBlank c then scan fuel line pending tokens rest
      else
        let (descriptor, body) := splitDescriptor text
        match leading? redirectors body with
        | some (op, rest) =>
          match Word.read (rest.dropWhile isBlank) with
          | .error f => tokens.push ⟨.fault f, line + linesBetween text []⟩
          | .ok ([], rest) => scan fuel line pending (tokens.push ⟨.operator op, line⟩) rest
          | .ok (w, rest) =>
            let next := line + linesBetween text rest
            if op == "<<" || op == "<<-" then
              let p : Pending :=
                ⟨tokens.size, descriptor.getD 0, Word.plainText w, Word.hasQuotes w,
                op == "<<-"⟩
              scan fuel next (pending ++ [p]) (tokens.push ⟨ofDocument p [], line⟩) rest
            else scan fuel next pending
              (tokens.push ⟨.redirection (redirect op descriptor w), line⟩) rest
        | none =>
          match leading? operators text with
          | some (op, rest) => scan fuel line pending (tokens.push ⟨.operator op, line⟩) rest
          | none =>
            match Word.read text with
            | .error f => tokens.push ⟨.fault f, line + linesBetween text []⟩
            | .ok (w, rest) =>
              scan fuel (line + linesBetween text rest) pending (tokens.push ⟨.word w, line⟩) rest

def ofText (line : Nat) (text : Octets) : List Lexeme :=
  (scan (text.length + 1) line [] #[] text).toList

/-- The words that have a meaning of their own where a command begins. -/
def reserved : List String :=
  ["!", "case", "do", "done", "elif", "else", "esac", "fi", "for", "if", "in", "then", "until",
    "while", "\x7b", "\x7d"]

def bareText? : Token → Option String
  | word w => (Word.bare? w).map Octets.toText
  | _ => none

def quotedName (text : String) : String :=
  "\"" ++ text ++ "\""

def isRedirector : Token → Bool
  | operator text => redirectors.contains text
  | _ => false

/-- How complaints call a token. -/
def name (token : Token) : String :=
  match token with
  | word _ => ((bareText? token).filter reserved.contains).elim "word" quotedName
  | operator text => quotedName text
  | redirection _ => "redirection"
  | newline => "newline"
  | finish => "end of file"
  | fault f => f.message

end Token

end Turnery.Shell
