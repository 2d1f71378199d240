import Turnery.Shell.Format
import Turnery.Shell.Regex

/-!
# Scripts of the line editor

A script is a list of commands. Each is a letter with what it needs, and the lines for which it is
carried out stand before it. Braces around commands are commands themselves.
-/

namespace Turnery.Shell.Editor

inductive Address where
  | line (n : Nat)
  | last
  /-- A regular expression; without one the latest that was used. -/
  | described (r : Option Regex)
  /-- Every so many lines from one on. -/
  | every (first step : Nat)

inductive Finish where
  | address (a : Address)
  | count (n : Nat)
  | multiple (n : Nat)

structure Selection where
  start : Option Address
  finish : Option Finish
  isNegated : Bool

inductive Part where
  | text (t : Octets)
  /-- What a group has described; zero stands for the whole. -/
  | group (n : Nat)
  /-- A change of case from here on, or of the next character. -/
  | letters (sign : Char)

/-- How pieces of a line are replaced. -/
structure Substitution where
  pattern : Option Regex
  parts : List Part
  /-- The first piece to be replaced, and whether those behind it are replaced too. -/
  place : Nat
  isGlobal : Bool
  prints : Bool
  file : Option Octets

inductive Jump where
  | always
  | changed
  | unchanged
  deriving DecidableEq

inductive Action where
  | opening
  | closing
  | label (name : Octets)
  | jump (kind : Jump) (label : Octets)
  | substitute (s : Substitution)
  | exchange (source target : Octets)
  | append (text : Octets)
  | insert (text : Octets)
  | change (text : Octets)
  | readFile (path : Octets)
  | writeFile (path : Octets)
  | quit (prints : Bool) (status : Nat)
  /-- A command by a letter alone. -/
  | simple (letter : Char)

structure Command where
  selection : Selection
  action : Action

/-- What is left of a script, and how long it was. -/
structure Rest where
  text : Octets
  size : Nat

abbrev Reader := StateT Rest (Except String)

/-- Ends reading with a complaint and the place that has been reached. -/
def fail {α : Type} (message : String) : Reader α := do
  let r ← get
  throw ("-e expression #1, char " ++ Number.natText (r.size - r.text.length) ++ ": " ++ message)

/-- The next character, which is used up. -/
def take? : Reader (Option Char) := do
  let r ← get
  match r.text with
  | [] => pure none
  | c :: rest => do
    set { r with text := rest }
    pure (some c)

def peek? : Reader (Option Char) := do
  pure (← get).text.head?

/-- Uses up characters as long as they are of a kind. -/
def takeWhile (isWanted : Char → Bool) : Reader Octets := do
  let r ← get
  let taken := r.text.takeWhile isWanted
  set { r with text := r.text.drop taken.length }
  pure taken

def isBlank (c : Char) : Bool :=
  c == ' ' || c == '\t'

def isSpace (c : Char) : Bool :=
  c == ' ' || ('\t' ≤ c && c ≤ '\r')

def skipBlanks : Reader Unit := do
  let _ ← takeWhile isBlank

def number : Reader Nat := do
  pure (Number.natOfDigits (← takeWhile Char.isDigit))

/-- How many characters stand behind an opening bracket up to the closing one, that one included; a
bracket that comes first does not close. -/
def bracketLength? : Bool → Octets → Option Nat
  | _, [] => none
  | isFirst, c :: rest =>
    if c == ']' && !isFirst then some 1
    else (bracketLength? (isFirst && c == '^') rest).map (· + 1)

/-- The text up to a delimiter, and what is left behind that; a number of characters at the front
are plain. So is a delimiter behind a backslash, or in the brackets of a regular expression. -/
def delimited? (isRegex : Bool) (delimiter : Char) : Nat → Octets → Option (Octets × Octets)
  | _, [] => none
  | plain + 1, c :: rest =>
    (delimited? isRegex delimiter plain rest).map fun (text, rest) => (c :: text, rest)
  | 0, '\\' :: c :: rest =>
    (delimited? isRegex delimiter 0 rest).map fun (text, rest) =>
      if c == delimiter && !(c == '&' && !isRegex) then (c :: text, rest)
      else if c == 'n' && isRegex then ('\n' :: text, rest)
      else ('\\' :: c :: text, rest)
  | 0, c :: rest =>
    if c == delimiter then some ([], rest)
    else
      let plain := if isRegex && c == '[' then (bracketLength? true rest).getD 0 else 0
      (delimited? isRegex delimiter plain rest).map fun (text, rest) => (c :: text, rest)

/-- Uses up the text up to a delimiter. -/
def delimited (isRegex : Bool) (delimiter : Char) (complaint : String) : Reader Octets := do
  let r ← get
  match delimited? isRegex delimiter 0 r.text with
  | some (text, rest) => do
    set { r with text := rest }
    pure text
  | none => do
    set { r with text := [] }
    fail complaint

/-- The regular expression that a text writes; an empty text stands for the latest one. -/
def regex (isExtended ignoresCase : Bool) (text : Octets) : Reader (Option Regex × Nat) := do
  if text.isEmpty then pure (none, 9)
  else
    match Regex.read ⟨isExtended, ignoresCase, true⟩ text with
    | .ok (r, groups) => pure (some r, groups)
    | .error message => fail message

def address? (isExtended : Bool) : Reader (Option Address) := do
  match ← peek? with
  | some '$' => do
    let _ ← take?
    pure (some .last)
  | some c =>
    if c.isDigit then
      let first ← number
      if (← peek?) == some '~' then
        let _ ← take?
        pure (some (.every first (← number)))
      else pure (some (.line first))
    else if c == '/' || c == '\\' then
      let _ ← take?
      let delimiter ← if c == '/' then pure (some '/') else take?
      let text ← delimited true (delimiter.getD '/') "unterminated address regex"
      let flags ← takeWhile fun c => c == 'I' || c == 'M'
      let (r, _) ← regex isExtended (flags.contains 'I') text
      pure (some (.described r))
    else pure none
  | none => pure none

/-- The lines that are selected by what stands in front of a command. -/
def selection (isExtended : Bool) : Reader Selection := do
  let start ← address? isExtended
  skipBlanks
  let finish ←
    if start.isSome && (← peek?) == some ',' then do
      let _ ← take?
      skipBlanks
      match ← peek? with
      | some '+' => do
        let _ ← take?
        pure (some (Finish.count (← number)))
      | some '~' => do
        let _ ← take?
        pure (some (Finish.multiple (← number)))
      | _ =>
        match ← address? isExtended with
        | some a => pure (some (Finish.address a))
        | none => do
          let _ ← take?
          fail "unexpected \x60,'"
    else pure none
  let isZero := match start with
    | some (.line 0) => true
    | _ => false
  let isDescribed := match finish with
    | some (.address (.described _)) => true
    | _ => false
  if isZero && !isDescribed then fail "invalid usage of line address 0"
  skipBlanks
  let negations ← takeWhile fun c => c == '!' || isBlank c
  pure ⟨start, finish, negations.contains '!'⟩

/-- The end of a command: of the line, or a semicolon; a brace or a comment may follow. -/
def endOfCommand : Reader Unit := do
  skipBlanks
  match ← peek? with
  | none | some '}' | some '#' => pure ()
  | some c => do
    let _ ← take?
    if c != '\n' && c != ';' then fail "extra characters after command"

/-- The text of a command up to the end of the line; backslashes keep the ends of lines. -/
def lineText : Octets → Octets × Octets
  | [] => ([], [])
  | '\\' :: c :: rest =>
    let (text, rest) := lineText rest
    (c :: text, rest)
  | '\n' :: rest => ([], rest)
  | c :: rest =>
    let (text, rest) := lineText rest
    (c :: text, rest)

/-- The text that is added or put in place of lines. -/
def addition : Reader Octets := do
  skipBlanks
  match ← peek? with
  | none => fail "expected \\ after \x60a', \x60c' or \x60i'"
  | some '\\' => do
    let _ ← take?
    let blanks ← takeWhile isBlank
    if (← peek?) == some '\n' then
      let _ ← take?
    else modify fun r => { r with text := blanks ++ r.text }
  | some _ => pure ()
  let r ← get
  let (text, rest) := lineText r.text
  set { r with text := rest }
  pure (if r.text.isEmpty then [] else text ++ ['\n'])

def parts : Octets → List Part
  | [] => []
  | '&' :: rest => .group 0 :: parts rest
  | '\\' :: c :: rest =>
    if c.isDigit then .group (c.toNat - '0'.toNat) :: parts rest
    else if ['U', 'L', 'u', 'l', 'E'].contains c then .letters c :: parts rest
    else .text [if c == '&' then '&' else (Format.letter? c).getD c] :: parts rest
  | c :: rest => .text [c] :: parts rest

structure Flags where
  letters : List Char
  place : Option Nat
  file : Option Octets

/-- Flags up to the end of a command, at most so many. -/
def flags : Nat → Reader Flags
  | 0 => pure ⟨[], none, none⟩
  | more + 1 => do
    match ← peek? with
    | none | some '}' | some '#' => pure ⟨[], none, none⟩
    | some 'w' => do
      let _ ← take?
      skipBlanks
      let path ← takeWhile (· != '\n')
      pure ⟨[], none, some path⟩
    | some c =>
      if c.isDigit then
        let n ← number
        if n == 0 then fail "number option to \x60s' command may not be zero"
        let f ← flags more
        pure { f with place := some n }
      else do
        let _ ← take?
        if c == '\n' || c == ';' then pure ⟨[], none, none⟩
        else if ['g', 'p', 'i', 'I', 'm', 'M', 'e'].contains c then do
          let f ← flags more
          pure { f with letters := c :: f.letters }
        else if isBlank c || c == '\r' then flags more
        else fail "unknown option to \x60s'"

def substitution (isExtended : Bool) : Reader Substitution := do
  let complaint := "unterminated \x60s' command"
  match ← take? with
  | none => fail complaint
  | some delimiter => do
    let pattern ← delimited true delimiter complaint
    let replacement ← delimited false delimiter complaint
    let f ← flags ((← get).text.length + 1)
    let (r, groups) ← regex isExtended (f.letters.contains 'i' || f.letters.contains 'I') pattern
    let ps := parts replacement
    let greatest := ps.foldl (fun n p => match p with
      | .group m => max n m
      | _ => n) 0
    if groups < greatest then
      fail ("invalid reference \\" ++ Number.natText greatest ++ " on \x60s' command's RHS")
    pure ⟨r, ps, f.place.getD 1, f.letters.contains 'g', f.letters.contains 'p', f.file⟩

/-- The characters of an exchange; a backslash writes a newline or a backslash. -/
def exchanged : Octets → Octets
  | '\\' :: 'n' :: rest => '\n' :: exchanged rest
  | '\\' :: '\\' :: rest => '\\' :: exchanged rest
  | c :: rest => c :: exchanged rest
  | [] => []

/-- The exchange of characters behind its letter. -/
def exchange : Reader Action := do
  let complaint := "unterminated \x60y' command"
  match ← take? with
  | none => fail complaint
  | some delimiter => do
    let source ← delimited false delimiter complaint
    let target ← delimited false delimiter complaint
    let (source, target) := (exchanged source, exchanged target)
    if source.length != target.length then fail "strings for \x60y' command are different lengths"
    endOfCommand
    pure (.exchange source target)

def labelName : Reader Octets := do
  skipBlanks
  let name ← takeWhile fun c => !isSpace c && c != ';'
  pure name

def path : Reader Octets := do
  skipBlanks
  let path ← takeWhile (· != '\n')
  if path.isEmpty then fail "missing filename in r/R/w/W commands" else pure path

def action (isExtended : Bool) (letter : Char) : Reader Action := do
  match letter with
  | 's' => do pure (.substitute (← substitution isExtended))
  | 'y' => exchange
  | 'a' => do pure (.append (← addition))
  | 'i' => do pure (.insert (← addition))
  | 'c' => do pure (.change (← addition))
  | ':' => do
    let name ← labelName
    if name.isEmpty then fail "\":\" lacks a label" else pure (.label name)
  | 'b' => do
    let name ← labelName
    endOfCommand
    pure (.jump .always name)
  | 't' => do
    let name ← labelName
    endOfCommand
    pure (.jump .changed name)
  | 'T' => do
    let name ← labelName
    endOfCommand
    pure (.jump .unchanged name)
  | 'r' => do pure (.readFile (← path))
  | 'w' => do pure (.writeFile (← path))
  | 'q' | 'Q' => do
    skipBlanks
    let status ← number
    endOfCommand
    pure (.quit (letter == 'q') status)
  | 'l' => do
    skipBlanks
    let _ ← number
    endOfCommand
    pure (.simple 'l')
  | _ =>
    if ['=', 'd', 'D', 'F', 'g', 'G', 'h', 'H', 'n', 'N', 'p', 'P', 'x', 'z'].contains letter then
        do
      endOfCommand
      pure (.simple letter)
    else fail ("unknown command: \x60" ++ String.singleton letter ++ "'")

/-- Reads commands, at most so many, of which some are inside blocks that have been opened. -/
def commands (isExtended : Bool) : Nat → Nat → Reader (List Command)
  | 0, _ => pure []
  | more + 1, depth => do
    let _ ← takeWhile fun c => isSpace c || c == ';'
    match ← peek? with
    | none =>
      if depth == 0 then pure []
      else throw "-e expression #1, char 0: unmatched \x60\x7b'"
    | some '#' => do
      let _ ← takeWhile (· != '\n')
      commands isExtended more depth
    | some _ => do
      let selected ← selection isExtended
      match ← take? with
      | none => fail "missing command"
      | some '{' => do
        let others ← commands isExtended more (depth + 1)
        pure (⟨selected, .opening⟩ :: others)
      | some '}' =>
        if depth == 0 then fail "unexpected \x60\x7d'"
        else if selected.start.isSome then fail "\x7d doesn't want any addresses"
        else do
          endOfCommand
          let others ← commands isExtended more (depth - 1)
          pure (⟨selected, .closing⟩ :: others)
      | some '#' => fail "comments don't accept any addresses"
      | some '\n' | some ';' => fail "missing command"
      | some letter => do
        if letter == ':' && selected.start.isSome then fail ": doesn't want any addresses"
        let done ← action isExtended letter
        let others ← commands isExtended more depth
        pure (⟨selected, done⟩ :: others)

def missingLabel? (cs : List Command) : Option Octets :=
  let labels := cs.filterMap fun c => match c.action with
    | .label name => some name
    | _ => none
  cs.findSome? fun c => match c.action with
    | .jump _ name => if name.isEmpty || labels.contains name then none else some name
    | _ => none

/-- The commands that a text writes, or a complaint and the status that it comes to. -/
def read (isExtended : Bool) (text : Octets) : Except (String × Nat) (List Command) :=
  match (commands isExtended (text.length + 2) 0).run ⟨text, text.length⟩ with
  | .error message => .error (message, 1)
  | .ok (cs, _) =>
    match missingLabel? cs with
    | some name => .error ("can't find label for jump to \x60" ++ Octets.toText name ++ "'", 4)
    | none => .ok cs

end Turnery.Shell.Editor
