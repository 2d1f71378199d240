import Turnery.Shell.Octets

/-!
# Words

A word is a list of pieces: literal text, parameters, arithmetic and the output of scripts. Each
piece knows whether it is quoted, since quoted pieces are not cut into fields and have no meaning in
patterns. Words are read off the front of a text in a context that says where they end.
-/

namespace Turnery.Shell

inductive Replacement where
  | fallback
  | assign
  | complain
  | substitute
  deriving DecidableEq, Repr

inductive Modifier where
  | plain
  | size
  /-- The word replaces the value, or a missing one; an empty value may count as missing. -/
  | replace (kind : Replacement) (emptyCounts : Bool)
  /-- What matches the word is cut off at one end. -/
  | trim (atEnd longest : Bool)
  deriving DecidableEq, Repr

/-- The word of the modifier is a pattern, which quotes around the parameter do not touch. -/
def Modifier.isTrim : Modifier → Bool
  | trim _ _ => true
  | _ => false

inductive Piece where
  | literal (text : Octets) (quoted : Bool)
  | parameter (name : Octets) (modifier : Modifier) (word : List Piece) (quoted : Bool)
  | arithmetic (body : List Piece) (quoted : Bool)
  | output (script : Octets) (quoted : Bool)

abbrev Word := List Piece

/-- Why a script cannot be read. -/
inductive Fault where
  | unterminated
  | missingParentheses
  | missingBrace
  | missingBackquote
  | badSubstitution
  | badLoopName
  | badFunctionName
  | unexpected (found : String) (wanted : Option String)
  deriving DecidableEq, Repr

def Fault.message : Fault → String
  | unterminated => "Syntax error: Unterminated quoted string"
  | missingParentheses => "Syntax error: Missing '))'"
  | missingBrace => "Syntax error: Missing '\x7d'"
  | missingBackquote => "Syntax error: EOF in backquote substitution"
  | badSubstitution => "Bad substitution"
  | badLoopName => "Syntax error: Bad for loop variable"
  | badFunctionName => "Syntax error: Bad function name"
  | unexpected found wanted =>
    "Syntax error: " ++ found ++ " unexpected" ++
      (match wanted with
        | some wanted => " (expecting " ++ wanted ++ ")"
        | none => "")

namespace Word

def isNameStart (c : Char) : Bool :=
  c.isAlpha || c == '_'

def isNameChar (c : Char) : Bool :=
  c.isAlphanum || c == '_'

def isName (text : Octets) : Bool :=
  (text.head?.any isNameStart) && text.all isNameChar

def isSpecial (c : Char) : Bool :=
  ['@', '*', '#', '?', '-', '$', '!'].contains c

/-- The characters that end a word outside quotes. -/
def isBoundary (c : Char) : Bool :=
  [' ', '\t', '\n', ';', '&', '|', '<', '>', '(', ')'].contains c

inductive Context where
  | bare
  | quotes
  /-- The lines of an inner document, or arithmetic. -/
  | document
  /-- The word of a parameter in braces. -/
  | braces (quoted : Bool)
  deriving DecidableEq, Repr

namespace Context

def isQuoted : Context → Bool
  | bare => false
  | braces quoted => quoted
  | _ => true

def endsAt (context : Context) (c : Char) : Bool :=
  match context with
  | bare => isBoundary c
  | quotes => c == '"'
  | document => false
  | braces _ => c == '\x7d'

def openFault? : Context → Option Fault
  | bare | document => none
  | quotes => some .unterminated
  | braces _ => some .missingBrace

def consumesEnd : Context → Bool
  | bare => false
  | _ => true

/-- A backslash in quoted text takes away the meaning of the character. -/
def escapes (context : Context) (c : Char) : Bool :=
  ['$', '\x60', '\\'].contains c || (context == quotes && c == '"') ||
    (context == braces true && c == '\x7d')

end Context

/-- A word with one more literal character in front. -/
def push (c : Char) (quoted : Bool) : Word → Word
  | .literal text q :: rest =>
    if q == quoted then .literal (c :: text) q :: rest
    else .literal [c] quoted :: .literal text q :: rest
  | word => .literal [c] quoted :: word

def upTo? (mark : Char) (text : Octets) : Option (Octets × Octets) :=
  let front := text.takeWhile (· != mark)
  match text.drop front.length with
  | [] => none
  | _ :: rest => some (front, rest)

/-- The text up to the parenthesis that closes what is open, and the rest. Parentheses in quotes do
not count. -/
def enclosed? : Nat → Option Char → Octets → Option (Octets × Octets)
  | _, _, [] => none
  | depth, some '"', '\\' :: c :: rest =>
    (enclosed? depth (some '"') rest).map fun (inner, rest) => ('\\' :: c :: inner, rest)
  | depth, some mark, c :: rest =>
    (enclosed? depth (if c == mark then none else some mark) rest).map fun (inner, rest) =>
      (c :: inner, rest)
  | depth, none, '\\' :: c :: rest =>
    (enclosed? depth none rest).map fun (inner, rest) => ('\\' :: c :: inner, rest)
  | depth, none, c :: rest =>
    if c == ')' && depth == 0 then some ([], rest)
    else
      let depth := if c == '(' then depth + 1 else if c == ')' then depth - 1 else depth
      let quote := if c == '"' || c == '\'' then some c else none
      (enclosed? depth quote rest).map fun (inner, rest) => (c :: inner, rest)

/-- The script between backquotes, in which a backslash protects some characters, and the rest. -/
def backquoted? (context : Context) : Octets → Option (Octets × Octets)
  | [] => none
  | '\x60' :: rest => some ([], rest)
  | '\\' :: c :: rest =>
    let plain := if context.escapes c then [c] else ['\\', c]
    (backquoted? context rest).map fun (inner, rest) => (plain ++ inner, rest)
  | c :: rest => (backquoted? context rest).map fun (inner, rest) => (c :: inner, rest)

/-- The name of a parameter at the front of a text: a variable, a number or one sign. -/
def parameterName (text : Octets) : Octets :=
  match text with
  | [] => []
  | c :: _ =>
    if isNameStart c then text.takeWhile isNameChar
    else if c.isDigit then text.takeWhile Char.isDigit
    else if isSpecial c then [c]
    else []

/-- What follows the name of a parameter in braces: its modifier and the rest. -/
def modifier? : Octets → Option (Modifier × Octets)
  | ':' :: c :: rest => (replacement? c).map fun kind => (.replace kind true, rest)
  | '%' :: '%' :: rest => some (.trim true true, rest)
  | '%' :: rest => some (.trim true false, rest)
  | '#' :: '#' :: rest => some (.trim false true, rest)
  | '#' :: rest => some (.trim false false, rest)
  | c :: rest => (replacement? c).map fun kind => (.replace kind false, rest)
  | [] => none
where
  replacement? (c : Char) : Option Replacement :=
    match c with
    | '-' => some .fallback
    | '=' => some .assign
    | '?' => some .complain
    | '+' => some .substitute
    | _ => none

mutual

/-- The piece behind a dollar sign, and the rest. -/
def expansion : Nat → Bool → Octets → Except Fault (Piece × Octets)
  | 0, _, _ => .error .unterminated
  | fuel + 1, quoted, text =>
    match text with
    | '(' :: '(' :: rest =>
      match enclosed? 0 none ('(' :: rest) with
      | none => .error .missingParentheses
      | some (inner, rest) => do
        let (body, _) ← pieces fuel .document (inner.drop 1).dropLast
        .ok (.arithmetic body quoted, rest)
    | '(' :: rest =>
      match enclosed? 0 none rest with
      | none => .error (.unexpected "end of file" (some "\")\""))
      | some (inner, rest) => .ok (.output inner quoted, rest)
    | '\x7b' :: rest => inBraces fuel quoted rest
    | _ =>
      let name := match text with
        | c :: _ => if c.isDigit then [c] else parameterName text
        | [] => []
      if name.isEmpty then .ok (.literal ['$'] quoted, text)
      else .ok (.parameter name .plain [] quoted, text.drop name.length)

/-- The parameter behind an opening brace, and the rest. -/
def inBraces : Nat → Bool → Octets → Except Fault (Piece × Octets)
  | 0, _, _ => .error .missingBrace
  | fuel + 1, quoted, text =>
    let sized := match text with
      | '#' :: rest => parameterName rest
      | _ => []
    if !sized.isEmpty && (text.drop (sized.length + 1)).head? == some '\x7d' then
      .ok (.parameter sized .size [] quoted, text.drop (sized.length + 2))
    else
      let name := parameterName text
      match name, text.drop name.length with
      | [], _ => .error .badSubstitution
      | _, [] => .error .missingBrace
      | _, '\x7d' :: rest => .ok (.parameter name .plain [] quoted, rest)
      | _, rest =>
        match modifier? rest with
        | none => .error .badSubstitution
        | some (modifier, rest) => do
          let (word, rest) ← pieces fuel (.braces (quoted && !modifier.isTrim)) rest
          .ok (.parameter name modifier word quoted, rest)

def pieces : Nat → Context → Octets → Except Fault (Word × Octets)
  | 0, _, _ => .error .unterminated
  | fuel + 1, context, text =>
    match text with
    | [] =>
      match context.openFault? with
      | some fault => .error fault
      | none => .ok ([], [])
    | c :: rest =>
      if context.endsAt c then .ok ([], if context.consumesEnd then rest else text)
      else
        let quoted := context.isQuoted
        match c, rest with
        | '\\', '\n' :: rest => pieces fuel context rest
        | '\\', d :: rest' =>
          if !quoted || context.escapes d then do
            let (word, rest) ← pieces fuel context rest'
            .ok (push d true word, rest)
          else do
            let (word, rest) ← pieces fuel context rest
            .ok (push '\\' quoted word, rest)
        | '$', rest => do
          let (piece, rest) ← expansion fuel quoted rest
          let (word, rest) ← pieces fuel context rest
          .ok (piece :: word, rest)
        | '\x60', rest =>
          match backquoted? context rest with
          | none => .error .missingBackquote
          | some (script, rest) => do
            let (word, rest) ← pieces fuel context rest
            .ok (.output script quoted :: word, rest)
        | '\'', rest =>
          if quoted then do
            let (word, rest) ← pieces fuel context rest
            .ok (push '\'' quoted word, rest)
          else
            match upTo? '\'' rest with
            | none => .error .unterminated
            | some (inner, rest) => do
              let (word, rest) ← pieces fuel context rest
              .ok (.literal inner true :: word, rest)
        | '"', rest =>
          if context == .braces true then pieces fuel context rest
          else if quoted then do
            let (word, rest) ← pieces fuel context rest
            .ok (push '"' quoted word, rest)
          else do
            let (inner, rest) ← pieces fuel .quotes rest
            let (word, rest) ← pieces fuel context rest
            .ok ((if inner.isEmpty then [.literal [] true] else inner) ++ word, rest)
        | c, rest => do
          let (word, rest) ← pieces fuel context rest
          .ok (push c quoted word, rest)

end

def read (text : Octets) : Except Fault (Word × Octets) :=
  pieces (text.length + 1) .bare text

def ofText (context : Context) (text : Octets) : Except Fault Word :=
  (pieces (text.length + 1) context text).map Prod.fst

def bare? : Word → Option Octets
  | [.literal text false] => some text
  | _ => none

/-- The text of a word as it was before anything in it is expanded; quotes are left out. -/
def plainText (word : Word) : Octets :=
  word.flatMap fun
    | .literal text _ => text
    | _ => []

def hasQuotes (word : Word) : Bool :=
  word.any fun
    | .literal _ quoted => quoted
    | _ => false

def assignment? : Word → Option (Octets × Word)
  | .literal text false :: rest =>
    match upTo? '=' text with
    | none => none
    | some (name, value) =>
      if isName name then some (name, if value.isEmpty then rest else .literal value false :: rest)
      else none
  | _ => none

end Word

end Turnery.Shell
