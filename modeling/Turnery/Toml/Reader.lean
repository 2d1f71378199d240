import Turnery.Toml.Lexical
import Turnery.Toml.Node

/-!
# Reading TOML

A document is a sequence of lines: headers, entries, comments and blank lines. The entries behind a
header are collected and put into the document when the next header comes.
-/

namespace Turnery.Toml.Reader

open Lexical

/-- Items up to a closing character, separated by commas; there is at least one. -/
def separated? {α : Type} (item : List Char → Option (α × List Char)) :
    Nat → List Char → Option (List α × List Char)
  | 0, _ => none
  | fuel + 1, text => do
    let (first, rest) ← item text
    match rest with
    | ',' :: rest =>
      match separated? item fuel rest with
      | some (others, rest) => some (first :: others, rest)
      | none => some ([first], ',' :: rest)
    | rest => some ([first], rest)

/-- The text behind a comma, if one stands at the front. -/
def skipComma : List Char → List Char
  | ',' :: rest => rest
  | text => text

/-- An item of an array with the blanks, line ends and comments around it. -/
def spaced? {α : Type} (item : List Char → Option (α × List Char)) (text : List Char) :
    Option (α × List Char) := do
  let (x, rest) ← item (← skipLines? false text)
  some (x, ← skipLines? false rest)

/-- The items of an array behind its opening bracket, up to behind the closing one. A comma may
follow the last. -/
def items? (value : List Char → Option (Node × List Char)) (text : List Char) :
    Option (List Node × List Char) :=
  match separated? (spaced? value) (text.length + 1) text with
  | some (items, rest) => do
    let rest ← expect? ']' (← skipLines? false (skipComma rest))
    some (items, rest)
  | none => do
    let rest ← expect? ']' (← skipLines? false text)
    some ([], rest)

/-- An entry: a key, an equals sign and a value, with blanks around the value. -/
def assignment? (value : List Char → Option (Node × List Char)) (text : List Char) :
    Option (((List String × String) × Node) × List Char) := do
  let (key, rest) ← key? text
  let (node, rest) ← value (skipBlanks (← expect? '=' rest))
  some ((key, node), skipBlanks rest)

/-- The entries of an inline table behind its opening brace, up to behind the closing one. -/
def inlineEntries? (value : List Char → Option (Node × List Char)) (text : List Char) :
    Option (Entries × List Char) := do
  let (entries, rest) := (separated? (assignment? value) (text.length + 1) text).getD ([], text)
  let rest ← expect? '\x7d' (skipBlanks rest)
  let table ← entries.foldlM (fun table ((path, key), node) => Entries.insertAt table path key node)
    []
  some (table, rest)

def numeric? (text : List Char) : Option (Node × List Char) :=
  match moment? text with
  | some rest => some (.moment, rest)
  | none =>
    match real? text with
    | some (x, rest) => some (.real x, rest)
    | none => (integer? text).map fun (n, rest) => (.integer n, rest)

/-- A value, inside of which so many arrays and tables may be nested. -/
def value? : Nat → List Char → Option (Node × List Char)
  | room, '[' :: rest =>
    match room with
    | 0 => none
    | room + 1 => (items? (value? room) rest).map fun (items, rest) => (.array items, rest)
  | room, '\x7b' :: rest =>
    match room with
    | 0 => none
    | room + 1 =>
      (inlineEntries? (value? room) rest).map fun (entries, rest) => (.table .inline entries, rest)
  | _, 't' :: 'r' :: 'u' :: 'e' :: rest => some (.bool true, rest)
  | _, 'f' :: 'a' :: 'l' :: 's' :: 'e' :: rest => some (.bool false, rest)
  | _, '"' :: rest => (string? ('"' :: rest)).map fun (s, rest) => (.text (String.ofList s), rest)
  | _, '\'' :: rest => (string? ('\'' :: rest)).map fun (s, rest) => (.text (String.ofList s), rest)
  | _, text => numeric? text

/-- How deeply arrays and inline tables may be nested. -/
def maxDepth : Nat := 79

/-- A document under construction: what is complete, and the table whose entries are being
collected. -/
structure Draft where
  root : Entries
  path : List String
  /-- The table is one of several under a repeated header. -/
  isElement : Bool
  current : Entries

namespace Draft

/-- The draft of a document of which nothing has been read. -/
def start : Draft := ⟨[], [], false, []⟩

/-- The tables above the one at the end of a path, and its key. -/
def split (path : List String) : List String × String :=
  (path.dropLast, path.getLast?.getD "")

/-- Puts the current table into the entries of the table above it. -/
def place (draft : Draft) (key : String) : Entries.Change Unit := fun _ entries =>
  match entries.lookup key with
  | none =>
    if draft.isElement then none else some (entries ++ [(key, .table .header draft.current)], ())
  | some (.tables elements) =>
    if draft.isElement then
      some (Entries.replace entries key (.tables (elements ++ [.table .header draft.current])), ())
    else none
  | some _ => none

/-- The document with the current table put into its place. -/
def finish? (draft : Draft) : Option Entries :=
  if draft.path.isEmpty then some draft.current
  else
    let (above, key) := split draft.path
    (Entries.updateAt false (draft.place key) above .header draft.root).map Prod.fst

/-- Takes the table of a header out of the table above it. It must be new or merely lie on the way
to others. -/
def takeOut (key : String) : Entries.Change Entries := fun _ entries =>
  match entries.lookup key with
  | none => some (entries, [])
  | some (.table .passage child) => some (Entries.remove entries key, child)
  | some _ => none

def openTable? (draft : Draft) (path : List String) : Option Draft := do
  let root ← draft.finish?
  let (above, key) := split path
  let (root, current) ← Entries.updateAt false (takeOut key) above .header root
  some ⟨root, path, false, current⟩

/-- Makes room for the tables of a repeated header. -/
def makeRoom (key : String) : Entries.Change Unit := fun _ entries =>
  match entries.lookup key with
  | none => some (entries ++ [(key, .tables [])], ())
  | some (.tables _) => some (entries, ())
  | some _ => none

/-- Starts another table of a repeated header. -/
def openElement? (draft : Draft) (path : List String) : Option Draft := do
  let root ← draft.finish?
  let (above, key) := split path
  let (root, _) ← Entries.updateAt false (makeRoom key) above .header root
  some ⟨root, path, true, []⟩

/-- Adds an entry to the current table. -/
def add? (draft : Draft) (path : List String) (key : String) (node : Node) : Option Draft :=
  (Entries.insertAt draft.current path key node).map fun current => { draft with current }

end Draft

def header? (draft : Draft) : List Char → Option (Draft × List Char)
  | '[' :: '[' :: rest => do
    let ((above, key), rest) ← key? rest
    let rest ← expect? ']' (← expect? ']' rest)
    let rest ← lineEnd? rest
    some (← draft.openElement? (above ++ [key]), rest)
  | '[' :: rest => do
    let ((above, key), rest) ← key? rest
    let rest ← lineEnd? (← expect? ']' rest)
    some (← draft.openTable? (above ++ [key]), rest)
  | _ => none

/-- A line of a document without the blanks at its front. -/
def line? (draft : Draft) (text : List Char) : Option (Draft × List Char) :=
  match text with
  | '[' :: _ => header? draft text
  | '#' :: _ => (lineEnd? text).map (draft, ·)
  | '\n' :: rest => some (draft, rest)
  | '\r' :: rest => (newline? ('\r' :: rest)).map (draft, ·)
  | text => do
    let (((path, key), node), rest) ← assignment? (value? maxDepth) text
    let rest ← lineEnd? rest
    some (← draft.add? path key node, rest)

def lines? : Nat → Draft → List Char → Option Draft
  | 0, _, _ => none
  | fuel + 1, draft, text =>
    match skipBlanks text with
    | [] => some draft
    | text => do
      let (draft, rest) ← line? draft text
      lines? fuel draft rest

/-- The text without a byte order mark at its front. -/
def skipByteOrderMark : List Char → List Char
  | '\uFEFF' :: rest => rest
  | text => text

/-- The top table of a document. -/
def parse? (text : String) : Option Entries := do
  let cs := skipByteOrderMark text.toList
  let draft ← lines? (cs.length + 1) .start cs
  draft.finish?

end Turnery.Toml.Reader
