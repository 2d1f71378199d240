import Turnery.Shell.Utility.Display

/-!
# Counting

The lines, words and bytes of texts, and the length of the longest line, in columns.
-/

namespace Turnery.Shell.Utility

namespace Tally

def vocabulary : Vocabulary where
  flags := "clLmw"
  valued := ""
  words :=
    [("bytes", 'c'), ("chars", 'm'), ("lines", 'l'), ("words", 'w'), ("max-line-length", 'L')]
  isOrdered := false

/-- How many words a text has, given whether its front belongs to a word. -/
def wordsFrom : Bool → Octets → Nat
  | _, [] => 0
  | within, c :: rest =>
    if Numeral.isSpace c then wordsFrom false rest
    else (if within then 0 else 1) + wordsFrom true rest

/-- How wide a line is that has some characters, given how wide it is before them. -/
def lineWidth (width : Nat) (line : Octets) : Nat :=
  line.foldl (fun width c => if c == '\t' then (width / 8 + 1) * 8 else if isHidden c then width
    else width + 1) width

def count (text : Octets) : Char → Nat
  | 'l' => text.count '\n'
  | 'w' => wordsFrom false text
  | 'L' => (bareLines text).foldl (fun longest line => max longest (lineWidth 0 line)) 0
  | _ => text.length

/-- The letters of what is counted, in the order of the columns. -/
def columns (c : Choices) : List Char :=
  if c.options.isEmpty then ['l', 'w', 'c'] else ['l', 'w', 'm', 'c', 'L'].filter c.has

/-- The row that adds up some rows: the lengths of lines are not added, the greatest counts. -/
def total (columns : List Char) (rows : List (List Nat)) : List Nat :=
  let add (letter : Char) (a b : Nat) := if letter == 'L' then max a b else a + b
  rows.foldl (fun sums row => (columns.zip (sums.zip row)).map fun (letter, a, b) => add letter a b)
    (columns.map fun _ => 0)

structure Entry where
  path : Octets
  /-- What can be counted, if anything. -/
  text : Option Octets
  /-- Why nothing more can be read. -/
  fault : Option String
  /-- How large the file is that is read, if it is one. -/
  size : Option Nat

def entry (path : Octets) : Act Entry := do
  let isFile := (← get).input.isFile
  let isThere := (← get).workspace.contains (Octets.toText path)
  match ← load path with
  | .ok text =>
    let size := if isInput path then (if isFile then some text.length else none)
      else if isThere then some text.length else none
    pure ⟨path, some text, none, size⟩
  | .error reason =>
    if isThere then pure ⟨path, some [], some reason, none⟩
    else pure ⟨path, none, some reason, some 0⟩

/-- How wide the columns are: enough for the sizes of all files, and more if something else is
read. -/
def width (columns : List Char) (entries : List Entry) : Nat :=
  if entries.length == 1 && columns.length == 1 then 1
  else
    let needed := (Number.digits (entries.foldl (fun n e => n + e.size.getD 0) 0)).length
    if entries.any fun e => e.size.isNone then max 7 needed else needed

def row (width : Nat) (counts : List Nat) (path : Option Octets) : Octets :=
  [' '].intercalate (counts.map (column width) ++ path.toList) ++ ['\n']

end Tally

def wordCount : Utility :=
  choosing Tally.vocabulary 1 fun name c => do
    let columns := Tally.columns c
    let entries ← (orInput c.operands).mapM Tally.entry
    entries.forM fun e => e.fault.forM fun reason => complain name (shown e.path ++ ": " ++ reason)
    let width := Tally.width columns entries
    let counted :=
      entries.filterMap fun e => e.text.map fun text => (e.path, columns.map (Tally.count text))
    counted.forM fun (path, counts) =>
      Act.send 1 (Tally.row width counts (if c.operands.isEmpty then none else some path))
    if 1 < entries.length then
      Act.send 1 (Tally.row width (Tally.total columns (counted.map Prod.snd))
        (some "total".toList))

end Turnery.Shell.Utility
