import Turnery.Datum.Basic
import Turnery.Json.Reader
import Turnery.Number.FloatStyle
import Turnery.Number.Radix

/-!
# Data in JSON

How the values of a JSON text are understood as data, and how data are written as JSON: indented by
two blanks a level, texts with as few escapes as the format allows.
-/

namespace Turnery.Datum

def ofLexeme (lexeme : List Char) : Datum :=
  match Json.Lexeme.value? lexeme with
  | none => unreadable
  | some (.integer n) => integer n
  | some (.real x) => real x

mutual

def ofJson : Json.Value → Datum
  | .null => null
  | .bool b => bool b
  | .number lexeme => ofLexeme lexeme
  | .string none => unreadable
  | .string (some s) => text s
  | .array items => list (ofJsonItems items)
  | .object members => record (ofJsonMembers members)

def ofJsonItems : List Json.Value → List Datum
  | [] => []
  | item :: items => ofJson item :: ofJsonItems items

def ofJsonMembers : List (Option String × Json.Value) → List (Option String × Datum)
  | [] => []
  | (name, value) :: members => (name, ofJson value) :: ofJsonMembers members

end

def ofJsonText? (s : String) : Option Datum :=
  (Json.Reader.parse? s).map ofJson

/-- A character within a string. -/
def jsonChar (c : Char) : List Char :=
  match c with
  | '"' => ['\\', '"']
  | '\\' => ['\\', '\\']
  | '\x08' => ['\\', 'b']
  | '\x0c' => ['\\', 'f']
  | '\n' => ['\\', 'n']
  | '\r' => ['\\', 'r']
  | '\t' => ['\\', 't']
  | c => if c.toNat < 0x20 then ['\\', 'u'] ++ Number.hexDigits 4 c.toNat else [c]

def jsonString (s : String) : String :=
  String.ofList ('"' :: s.toList.flatMap jsonChar ++ ['"'])

def integerText (n : Int) : String :=
  Number.signed (n < 0) (Number.natText n.natAbs)

/-- A double; JSON has no word for what is not finite. -/
def jsonReal (x : Float) : String :=
  if x.isFinite then Number.FloatStyle.jsonFloat.text x else "null"

/-- The start of a line at a level of indentation. -/
def indent (level : Nat) : String :=
  String.ofList ('\n' :: List.replicate (2 * level) ' ')

/-- Items between brackets, each on a line of its own. -/
def bracketed (opening closing : String) (level : Nat) (items : List String) : String :=
  if items.isEmpty then opening ++ closing
  else opening ++ indent (level + 1) ++ ("," ++ indent (level + 1)).intercalate items ++
    indent level ++ closing

mutual

def jsonText (level : Nat) : Datum → String
  | null => "null"
  | bool b => if b then "true" else "false"
  | integer n => integerText n
  | real x => jsonReal x
  | text s => jsonString s
  | list items => bracketed "[" "]" level (jsonItems (level + 1) items)
  | record members => bracketed "\x7b" "\x7d" level (jsonMembers (level + 1) members)
  | unreadable => "null"

def jsonItems (level : Nat) : List Datum → List String
  | [] => []
  | item :: items => jsonText level item :: jsonItems level items

def jsonMembers (level : Nat) : List (Option String × Datum) → List String
  | [] => []
  | (name, value) :: members =>
    (jsonString (name.getD "") ++ ": " ++ jsonText level value) :: jsonMembers level members

end

end Turnery.Datum
