import Turnery.Datum.Json
import Turnery.Toml.Reader

/-!
# Data in TOML

How the tables of a TOML document are understood as data, and how a record of records is written as
a document: one section for each, with an empty line between two.
-/

namespace Turnery.Datum

/-- The name under which a moment in time is kept. -/
def momentName : String := "$__toml_private_datetime"

mutual

def ofToml : Toml.Node → Datum
  | .text s => text s
  | .integer n => integer n
  | .real x => real x
  | .bool b => bool b
  | .moment => record [(some momentName, null)]
  | .array items => list (ofTomlItems items)
  | .table _ entries => record (ofTomlEntries entries)
  | .tables elements => list (ofTomlItems elements)

def ofTomlItems : List Toml.Node → List Datum
  | [] => []
  | item :: items => ofToml item :: ofTomlItems items

def ofTomlEntries : List (String × Toml.Node) → List (Option String × Datum)
  | [] => []
  | (key, node) :: entries => (some key, ofToml node) :: ofTomlEntries entries

end

def ofTomlText? (s : String) : Option Datum :=
  (Toml.Reader.parse? s).map fun entries => record (ofTomlEntries entries)

/-- A control character that a string can only hold as an escape; the tabulator and the line feed
have other ways. -/
def needsEscape (c : Char) : Bool :=
  (c.toNat < 0x20 && c != '\t' && c != '\n') || c.toNat == 0x7F

/-- The length of the longest run of a character; the run going on has a length already. -/
def longestRun (c : Char) : Nat → List Char → Nat
  | run, [] => run
  | run, d :: rest => if d == c then longestRun c (run + 1) rest else max run (longestRun c 0 rest)

/-- What of a text decides how it can be quoted. -/
structure Quotability where
  escapes : Bool
  newline : Bool
  backslash : Bool
  /-- The longest run of quotation marks. -/
  marks : Nat
  /-- The longest run of apostrophes. -/
  apostrophes : Nat

def Quotability.ofText (s : List Char) : Quotability where
  escapes := s.any needsEscape
  newline := s.contains '\n'
  backslash := s.contains '\\'
  marks := longestRun '"' 0 s
  apostrophes := longestRun '\'' 0 s

def escapeChar (c : Char) : List Char :=
  match c with
  | '\x08' => ['\\', 'b']
  | '\t' => ['\\', 't']
  | '\n' => ['\\', 'n']
  | '\x0c' => ['\\', 'f']
  | '\r' => ['\\', 'r']
  | '"' => ['\\', '"']
  | '\\' => ['\\', '\\']
  | c => ['\\', 'u'] ++ (Number.hexDigits 4 c.toNat).map Char.toUpper

/-- A text with escapes, in which a line feed may stand as it is and a number of quotation marks in
a row. -/
def escapeText (lineFeeds : Bool) (allowed : Nat) : Nat → List Char → List Char
  | _, [] => []
  | run, c :: rest =>
    if c == '"' then
      if run < allowed then '"' :: escapeText lineFeeds allowed (run + 1) rest
      else escapeChar '"' ++ escapeText lineFeeds allowed 0 rest
    else if c == '\\' || c == '\t' || needsEscape c || (c == '\n' && !lineFeeds) then
      escapeChar c ++ escapeText lineFeeds allowed 0 rest
    else c :: escapeText lineFeeds allowed 0 rest

/-- The opening of a string over several lines; a text with line feeds starts on a line of its
own. -/
def longOpening (mark : Char) (newline : Bool) : List Char :=
  List.replicate 3 mark ++ (if newline then ['\n'] else [])

/-- A string over several lines with escapes. -/
def longBasic (newline : Bool) (cs : List Char) : List Char :=
  longOpening '"' newline ++ escapeText true 2 0 cs ++ List.replicate 3 '"'

/-- A string within a line with escapes. -/
def shortBasic (cs : List Char) : List Char :=
  '"' :: escapeText false 0 0 cs ++ ['"']

/-- A string: of the four forms of quotation the first that needs no escapes but for tabulators,
else one with escapes. -/
def tomlString (s : String) : String :=
  let cs := s.toList
  let q := Quotability.ofText cs
  String.ofList <|
    if !q.escapes && !q.newline && !q.backslash && q.marks == 0 then shortBasic cs
    else if !q.escapes && !q.newline && q.apostrophes == 0 then '\'' :: cs ++ ['\'']
    else if !q.escapes && !q.backslash && q.marks ≤ 2 then longBasic q.newline cs
    else if !q.escapes && q.apostrophes ≤ 2
      then longOpening '\'' q.newline ++ cs ++ List.replicate 3 '\''
    else if q.newline then longBasic true cs
    else shortBasic cs

/-- The integers that a document can hold. -/
def tomlInteger? (n : Int) : Option String :=
  (Toml.Lexical.inRange? n).map integerText

def tomlReal (x : Float) : String :=
  if x.isNaN then "nan" else Number.FloatStyle.tomlFloat.text x

/-- The items of an array: up to one on the same line, more on lines of their own. -/
def tomlArray (items : List String) : String :=
  match items with
  | [] => "[]"
  | [item] => "[" ++ item ++ "]"
  | items => "[" ++ String.join (items.map fun item => "\n    " ++ item ++ ",") ++ "\n]"

/-- The text of a value that stands behind a key; there is none for tables and what a document
cannot hold. -/
def tomlValue? : Datum → Option String
  | bool b => some (if b then "true" else "false")
  | integer n => tomlInteger? n
  | real x => some (tomlReal x)
  | text s => some (tomlString s)
  | list items => (items.mapM (fun
      | text s => some (tomlString s)
      | _ => none)).map tomlArray
  | _ => none

/-- The lines of the entries of a section; what is null is left out. -/
def tomlEntries? : List (Option String × Datum) → Option String
  | [] => some ""
  | (_, null) :: members => tomlEntries? members
  | (name, value) :: members => do
    let v ← tomlValue? value
    let others ← tomlEntries? members
    some (name.getD "" ++ " = " ++ v ++ "\n" ++ others)

def tomlSection? (name : String) : Datum → Option String
  | record members => (tomlEntries? members).map fun entries => "[" ++ name ++ "]\n" ++ entries
  | _ => none

def tomlText? : Datum → Option String
  | record members => do
    let sections ← members.mapM fun (name, value) => tomlSection? (name.getD "") value
    some ("\n".intercalate sections)
  | _ => none

end Turnery.Datum
