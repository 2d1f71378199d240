import Turnery.Shell.Regex
import Turnery.Shell.Utility.Listing

/-!
# Searching lines

Lines that regular expressions describe a piece of are shown, or counted, or only their files named.
-/

namespace Turnery.Shell.Utility

open Turnery.Files

namespace Search

def vocabulary : Vocabulary where
  flags := "aEFGHILUbchilnoqrRsTvwxyzZ\x03"
  valued := "ABCDdefm\x03"
  words :=
    [("extended-regexp", 'E'), ("fixed-strings", 'F'), ("basic-regexp", 'G'), ("regexp", 'e'),
      ("file", 'f'), ("ignore-case", 'i'), ("word-regexp", 'w'), ("line-regexp", 'x'),
      ("no-messages", 's'), ("invert-match", 'v'), ("max-count", 'm'), ("line-number", 'n'),
      ("with-filename", 'H'), ("no-filename", 'h'), ("only-matching", 'o'), ("quiet", 'q'),
      ("silent", 'q'), ("text", 'a'), ("recursive", 'r'), ("files-without-match", 'L'),
      ("files-with-matches", 'l'), ("count", 'c'), ("before-context", 'B'), ("after-context", 'A'),
      ("context", 'C'), ("color", '\x03'), ("colour", '\x03')]
  isOrdered := false

structure Manner where
  isInverted : Bool
  counts : Bool
  /-- Only files are named: those with lines that are found, or those without. -/
  names : Option Bool
  numbers : Bool
  onlyPieces : Bool
  isQuiet : Bool
  most : Option Nat
  before : Nat
  after : Nat

def mannerOf (c : Choices) : Manner :=
  let count (letter : Char) := ((c.value? letter).or (c.value? 'C')).elim 0 Number.natOfDigits
  { isInverted := c.has 'v'
    counts := c.has 'c'
    names := (c.last? "lL").map (· == 'l')
    numbers := c.has 'n'
    onlyPieces := c.has 'o'
    isQuiet := c.has 'q'
    most := (c.value? 'm').map Number.natOfDigits
    before := count 'B'
    after := count 'A' }

def literal (style : Regex.Style) : Octets → Regex
  | [] => .empty
  | c :: rest => .sequence (.char style c) (literal style rest)

/-- The regular expression that describes what one of some patterns describes. -/
def regexOf (c : Choices) (patterns : List Octets) : Except String Regex := do
  let style : Regex.Style := ⟨c.last? "EFG" == some 'E', c.has 'i' || c.has 'y', false⟩
  let one (pattern : Octets) : Except String Regex := do
    let r ← if c.last? "EFG" == some 'F' then .ok (literal style pattern)
      else (Regex.read style pattern).map Prod.fst
    let r := if c.has 'w' then .sequence (.clear true) (.sequence r (.clear false)) else r
    .ok (if c.has 'x' then .sequence .lineStart (.sequence r .lineEnd) else r)
  match ← patterns.mapM one with
  | [] => .ok (.oneOf false [])
  | r :: rest => .ok (rest.foldl .either r)

/-- The pieces of a line that are described and not empty, of which there are at most so many. -/
def pieces (r : Regex) : Nat → Option Char → Octets → List Octets
  | 0, _, _ => []
  | more + 1, before, text =>
    match r.find? before text with
    | none => []
    | some f =>
      match f.piece, f.spot.rest with
      | [], [] => []
      | [], c :: rest => pieces r more (some c) rest
      | piece, rest => piece :: pieces r more f.spot.before rest

structure Line where
  text : Octets
  number : Nat
  isFound : Bool

/-- The lines of a text up to the last that may be found. -/
def judged (m : Manner) (r : Regex) : Nat → Nat → List Octets → List Line
  | _, _, [] => []
  | number, found, text :: rest =>
    if m.most.any (· ≤ found) then ⟨text, number, false⟩ :: judged m r (number + 1) found rest
    else
      let isFound := r.occursIn text != m.isInverted
      ⟨text, number, isFound⟩ :: judged m r (number + 1) (if isFound then found + 1 else found) rest

/-- The lines that are shown: those found and those near them. -/
def visible (m : Manner) (lines : List Line) : List Line :=
  let found := (lines.filter Line.isFound).map Line.number
  let last := found.getLast?.getD 0
  lines.filter fun line =>
    line.isFound || found.any fun n =>
      (line.number < n && n ≤ line.number + m.before) ||
        (n < line.number && line.number ≤ n + m.after &&
        (m.most.isNone || line.number ≤ last + m.after))

def lineText (m : Manner) (r : Regex) (label : Option Octets) (line : Line) : Octets :=
  let mark := if line.isFound then ':' else '-'
  let lead :=
    (label.elim [] (· ++ [mark])) ++ (if m.numbers then Number.digits line.number ++ [mark] else [])
  if m.onlyPieces then
    if m.isInverted || !line.isFound then []
    else (pieces r (line.text.length + 1) none line.text).flatMap fun piece =>
      lead ++ piece ++ ['\n']
  else lead ++ line.text ++ ['\n']

/-- The lines that are shown, with dashes where some are left out. -/
def linesText (m : Manner) (r : Regex) (label : Option Octets) : Option Nat → List Line → Octets
  | _, [] => []
  | previous, line :: rest =>
    let isGap := (m.before != 0 || m.after != 0) && previous.any fun n => n + 1 < line.number
    (if isGap then "--\n".toList else []) ++ lineText m r label line ++
      linesText m r label (some line.number) rest

/-- What is shown of a text, and whether something was found in it. -/
def report (m : Manner) (r : Regex) (title : Octets) (label : Option Octets) (text : Octets) :
    Octets × Bool :=
  let lines := judged m r 1 0 (bareLines text)
  let count := (lines.filter Line.isFound).length
  let isFound := count != 0
  if m.isQuiet then ([], isFound)
  else
    match m.names with
    | some wanted => (if isFound == wanted then title ++ ['\n'] else [], isFound == wanted)
    | none =>
      if m.counts then (label.elim [] (· ++ [':']) ++ Number.digits count ++ ['\n'], isFound)
      else (linesText m r label none (visible m lines), isFound)

def filesBeneath (w : Workspace) (path : String) : List Octets :=
  match w.place? path, w.find? path with
  | .ok place, .ok .directory =>
    let entries := Finding.entries w (w.nodes.length + 1) ⟨path, place, 0⟩
    (entries.filter fun e => w.node? e.place matches some (.file _)).map fun e =>
      Octets.ofText e.path
  | _, _ => [Octets.ofText path]

/-- The patterns among the choices, and the operands that are left; nothing if there are none. -/
def patterns? (c : Choices) : Act (Option (List Octets × List Octets)) := do
  let mut given := (c.values 'e').flatMap bareLines ++ (c.values 'e').filter List.isEmpty
  for path in c.values 'f' do
    match ← load path with
    | .ok text => given := given ++ bareLines text
    | .error _ => pure ()
  if c.has 'e' || c.has 'f' then pure (some (given, c.operands))
  else
    match c.operands with
    | [] => pure none
    | [] :: rest => pure (some ([[]], rest))
    | pattern :: rest => pure (some (pattern.splitOn '\n', rest))

def showUse (name : Octets) : Act Unit := do
  let text := Octets.toText name
  Act.send 2
    (Octets.ofText ("Usage: " ++ text ++ " [OPTION]... PATTERNS [FILE]...\nTry '" ++ text ++
    " --help' for more information.\n"))
  Act.setStatus 2

end Search

/-- Shows the lines of texts in which something is found. -/
def search (standard : List (Char × Octets)) : Utility :=
  choosingOr Search.vocabulary (fun name message => do
    complain name message
    Search.showUse name) fun name c => do
    let c := { c with options := standard ++ c.options }
    match ← Search.patterns? c with
    | none => Search.showUse name
    | some (patterns, operands) =>
      match Search.regexOf c patterns with
      | .error message => do
        complain name message
        Act.setStatus 2
      | .ok r => do
        let m := Search.mannerOf c
        let w := (← get).workspace
        let isDeep := c.has 'r' || c.has 'R'
        let paths := if !isDeep then orInput operands
          else if operands.isEmpty then (Search.filesBeneath w ".").map (List.drop 2)
          else operands.flatMap fun path => Search.filesBeneath w (Octets.toText path)
        let isLabelled := match c.last? "hH" with
          | some letter => letter == 'H'
          | none => 1 < operands.length || isDeep
        let found ← paths.mapM fun path => do
          match ← load path with
          | .ok text => do
            let title := if isInput path then "(standard input)".toList else path
            let (shown, isFound) :=
              Search.report m r title (if isLabelled then some title else none) text
            Act.send 1 shown
            pure (some isFound)
          | .error reason => do
            if !c.has 's' then complain name (Octets.toText path ++ ": " ++ reason)
            pure none
        let isFound := found.any (· == some true)
        let isFaulty := found.any Option.isNone && !(m.isQuiet && isFound)
        Act.setStatus (if isFaulty then 2 else if isFound then 0 else 1)

end Turnery.Shell.Utility
