import Turnery.Shell.Arithmetic
import Turnery.Shell.Field
import Turnery.Shell.Switch

/-!
# Expansion

The pieces of words are replaced by what they stand for, the results are cut into fields, and fields
that are patterns are replaced by the paths that they describe. How the output of a script is found
is left to the caller.
-/

namespace Turnery.Shell

open Turnery.Files

namespace State

def value? (s : State) (name : Octets) : Option Octets :=
  match name with
  | [] => none
  | ['@'] | ['*'] => if s.arguments.isEmpty then none else some ([' '].intercalate s.arguments)
  | ['#'] => some (Number.digits s.arguments.length)
  | ['?'] => some (Number.digits s.status)
  | ['$'] => some (Number.digits s.number)
  | ['!'] => s.jobs.head?.map fun job => Number.digits job.number
  | ['-'] => some (Switch.letters s)
  | ['0'] => some s.name
  | c :: _ => if c.isDigit then s.arguments[Number.natOfDigits name - 1]? else s.valueOf? name

def separators (s : State) : Octets :=
  (s.valueOf? ['I', 'F', 'S']).getD [' ', '\t', '\n']

end State

namespace Expansion

def argumentMarks (quoted : Bool) (arguments : List Octets) : List Mark :=
  [Mark.boundary].intercalate (arguments.map (Mark.ofResult quoted))

/-- The marks of a parameter that nothing is done to. -/
def plainMarks (name : Octets) (quoted : Bool) : Act (List Mark) := do
  let s ← get
  if name == ['@'] || (name == ['*'] && !quoted) then pure (argumentMarks quoted s.arguments)
  else if name == ['*'] then pure (Mark.ofQuoted ((s.separators.take 1).intercalate s.arguments))
  else
    match s.value? name with
    | some value => pure (Mark.ofResult quoted value)
    | none =>
      if s.has "nounset" then Act.fail (Octets.toText name ++ ": parameter not set")
      else pure (Mark.ofResult quoted [])

/-- The text that marks come to without being cut. -/
def joinedText (marks : List Mark) : Octets :=
  Glyph.text (Mark.joined marks)

/-- The marks of a parameter that a word may replace; the word's marks are made only if they are
used. -/
def replacedMarks (kind : Replacement) (emptyCounts : Bool) (name : Octets) (quoted : Bool)
    (word : Act (List Mark)) : Act (List Mark) := do
  let s ← get
  let value := s.value? name
  let missing := value.isNone || (emptyCounts && value == some [])
  let ofWord : Act (List Mark) := do
    let marks ← word
    pure ((if quoted then [Mark.presence] else []) ++ marks.map (Mark.asResult quoted))
  match kind, missing with
  | .fallback, true => ofWord
  | .substitute, true => pure (Mark.ofResult quoted [])
  | .substitute, false => ofWord
  | .assign, true => do
    let text := joinedText (← word)
    Act.assign name text
    pure (Mark.ofResult quoted text)
  | .complain, true => do
    let text := joinedText (← word)
    let standard := if emptyCounts then "parameter not set or null" else "parameter not set"
    Act.fail (Octets.toText name ++ ": " ++ (if text.isEmpty then standard else Octets.toText text))
  | _, false => plainMarks name quoted

def arithmeticMarks (quoted : Bool) (expr : Octets) : Act (List Mark) := do
  let s ← get
  match Arithmetic.evaluate s.bindings expr with
  | .error failure => Act.fail (failure.message expr)
  | .ok (n, bindings) =>
    let assigned := bindings.take (bindings.length - s.bindings.length)
    assigned.reverse.forM fun (name, value) => Act.assign name value
    pure (Mark.ofResult quoted (Arithmetic.text n))

/-- The output of a script without the line ends at its end. -/
def trimmedOutput (text : Octets) : Octets :=
  (text.reverse.dropWhile (· == '\n')).reverse

mutual

def pieceMarks (output : Octets → Act Octets) : Piece → Act (List Mark)
  | .literal text true => pure (Mark.ofQuoted text)
  | .literal text false => pure (text.map fun c => .glyph ⟨c, false⟩)
  | .parameter name .plain _ quoted => plainMarks name quoted
  | .parameter name .size _ quoted => do
    let s ← get
    if s.has "nounset" && (s.value? name).isNone && name != ['@'] && name != ['*'] then
      Act.fail (Octets.toText name ++ ": parameter not set")
    pure (Mark.ofResult quoted (Number.digits ((s.value? name).getD []).length))
  | .parameter name (.replace kind emptyCounts) word quoted =>
    replacedMarks kind emptyCounts name quoted (wordMarks output word)
  | .parameter name (.trim atEnd longest) word quoted => do
    let pattern ← wordMarks output word
    let s ← get
    if s.has "nounset" && (s.value? name).isNone then
      Act.fail (Octets.toText name ++ ": parameter not set")
    pure (Mark.ofResult quoted
      (Pattern.trim atEnd longest (Mark.joined pattern) ((s.value? name).getD [])))
  | .arithmetic body quoted => do
    let marks ← wordMarks output body
    arithmeticMarks quoted (joinedText marks)
  | .output script quoted => do
    let text ← output script
    pure (Mark.ofResult quoted (trimmedOutput text))

def wordMarks (output : Octets → Act Octets) : Word → Act (List Mark)
  | [] => pure []
  | piece :: rest => do
    let front ← pieceMarks output piece
    let back ← wordMarks output rest
    pure (front ++ back)

end

def text (output : Octets → Act Octets) (word : Word) : Act Octets := do
  pure (joinedText (← wordMarks output word))

/-- The names in a directory that a pattern describes. A leading point has to be written. -/
def namesFor (w : Workspace) (directory : Octets) (pattern : List Glyph) : List String :=
  let ps := Pattern.parts pattern
  let isDescribed (name : String) : Bool :=
    (!name.startsWith "." || pattern.head?.any fun g => g.char == '.') &&
      Pattern.describes ps (Octets.ofText name)
  let path := if directory.isEmpty then "." else Octets.toText directory
  match w.find? path, w.place? path with
  | .ok .directory, .ok place => (w.names place).filter isDescribed
  | _, _ => []

/-- The paths that the steps of a pattern describe, behind a path that is known. -/
def pathsFrom (w : Workspace) (front : Octets) : List (List Glyph) → List Octets
  | [] => []
  | [last] =>
    if Pattern.isProper last then
      (namesFor w front last).map fun name => front ++ Octets.ofText name
    else
      let path := front ++ Glyph.text last
      if (w.look? (Octets.toText path)).toOption.isSome then [path] else []
  | step :: rest =>
    if Pattern.isProper step then
      (namesFor w front step).flatMap fun name =>
        pathsFrom w (front ++ Octets.ofText name ++ ['/']) rest
    else pathsFrom w (front ++ Glyph.text step ++ ['/']) rest

/-- The field itself, or the paths that it describes as a pattern, if there are any. -/
def paths (w : Workspace) (field : List Glyph) : List Octets :=
  if Pattern.isProper field then
    match pathsFrom w [] (field.splitOnP fun g => g.char == '/') with
    | [] => [Glyph.text field]
    | found => found
  else [Glyph.text field]

def fields (output : Octets → Act Octets) (words : List Word) : Act (List Octets) := do
  let marks ← words.mapM (wordMarks output)
  let s ← get
  let complete := if s.has "noglob" then fun field => [Glyph.text field] else paths s.workspace
  pure (marks.flatMap fun ms => (Shell.fields s.separators ms).flatMap complete)

mutual

def runsScript : Piece → Bool
  | .output _ _ => true
  | .parameter _ _ word _ => runsScripts word
  | .arithmetic body _ => runsScripts body
  | .literal _ _ => false

def runsScripts : Word → Bool
  | [] => false
  | piece :: rest => runsScript piece || runsScripts rest

end

end Expansion

end Turnery.Shell
