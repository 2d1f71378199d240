import Turnery.Number.Binary64
import Turnery.Number.Literal
import Turnery.Number.Radix
import Turnery.Text.CharacterClass
import Turnery.Text.Encoding
import Turnery.Text.Utf8

/-!
# Typed pairs

The strict way to read a DXF file starts from its bytes: lines are taken in pairs of a code and a
value, the code decides the type of the value, and texts are decoded as the version of the file
demands. What cannot be read is kept as a fault at its place, so that a reader of whole records can
say where it met one.
-/

namespace Turnery.Dxf

abbrev Line := List UInt8

/-- The lines of a list of bytes, without the line feeds that end them. -/
def Line.ofBytes : List UInt8 → List Line
  | [] => []
  | 10 :: rest => [] :: ofBytes rest
  | b :: rest =>
    match ofBytes rest with
    | [] => [[b]]
    | line :: others => (b :: line) :: others

def byteOrderMark : List UInt8 := [0xEF, 0xBB, 0xBF]

/-- The line without each byte at its front that is the one of a mark at the same place. -/
def Line.unmarked : List UInt8 → Line → Line
  | m :: mark, b :: line => if b == m then unmarked mark line else b :: unmarked mark line
  | _, line => line

/-- How the texts of a file are encoded. -/
inductive Encoding where
  | windows1252
  | utf8
  deriving DecidableEq, Repr

/-- The characters of a line. One that starts with a byte order mark is encoded as the mark says. -/
def Encoding.characters? : Encoding → Line → Option (List Char)
  | _, 0xEF :: 0xBB :: 0xBF :: line => Text.Utf8.decode? line
  | _, 0xFF :: 0xFE :: line => Text.Utf16.decode? .lowFirst line
  | _, 0xFE :: 0xFF :: line => Text.Utf16.decode? .highFirst line
  | windows1252, line => some (Text.Windows1252.decode line)
  | utf8, line => Text.Utf8.decode? line

/-- A carriage return at the end of a line belongs to the line end. -/
def withoutReturn : List Char → List Char
  | [] => []
  | ['\r'] => []
  | c :: rest => c :: withoutReturn rest

def Encoding.decode? (encoding : Encoding) (line : Line) : Option (List Char) :=
  (encoding.characters? line).map withoutReturn

/-- The character that seven characters from a backslash on stand for, if they are an escaped code
point. -/
def codePoint? : List Char → Option Char
  | '\\' :: 'U' :: '+' :: ds =>
    some (match Number.hexNat? (Nat.pow 2 32 - 1) ds with
      | none => '?'
      | some n => if n.isValidChar then Char.ofNat n else '?')
  | _ => none

/-- The text with escaped code points replaced. A backslash claims the six characters behind it,
whether they are an escape or not; with fewer behind it, it and they are lost. -/
def unescapeCodePoints : List Char → List Char
  | [] => []
  | '\\' :: a :: b :: c :: d :: e :: f :: rest =>
    match codePoint? ['\\', a, b, c, d, e, f] with
    | some ch => ch :: unescapeCodePoints rest
    | none => ['\\', a, b, c, d, e, f] ++ unescapeCodePoints rest
  | '\\' :: _ => []
  | c :: rest => c :: unescapeCodePoints rest

/-- The character that one behind a caret stands for: a control character, or the caret itself. Of
the number of any other only the low byte counts. -/
def behindCaret (c : Char) : Char :=
  if c == ' ' then '^'
  else if '@' ≤ c && c ≤ '_' then Char.ofNat (c.toNat - '@'.toNat)
  else Char.ofNat (c.toNat % 256)

/-- The text with caret escapes undone; a caret at the end stands for nothing. -/
def uncaret : List Char → List Char
  | [] => []
  | ['^'] => []
  | '^' :: c :: rest => behindCaret c :: uncaret rest
  | c :: rest => c :: uncaret rest

/-- The text that a decoded line stands for. -/
def Encoding.textOf : Encoding → List Char → String
  | windows1252, line => String.ofList (uncaret (unescapeCodePoints line))
  | utf8, line => String.ofList (uncaret line)

inductive ValueType where
  | text
  | real
  | integer16
  | integer32
  | integer64
  | bytes
  deriving DecidableEq, Repr

/-- The codes of each type, as inclusive ranges. -/
def valueTypes : List (Int × Int × ValueType) :=
  [(0, 9, .text), (10, 59, .real), (60, 79, .integer16), (90, 99, .integer32), (100, 102, .text),
    (105, 105, .text), (110, 149, .real), (160, 169, .integer64), (170, 179, .integer16),
    (210, 239, .real), (270, 289, .integer16), (290, 299, .integer16), (300, 309, .text),
    (310, 319, .bytes), (320, 369, .text), (370, 389, .integer16), (390, 399, .text),
    (400, 409, .integer16), (410, 419, .text), (420, 429, .integer32), (430, 439, .text),
    (440, 459, .integer32), (460, 469, .real), (470, 481, .text), (999, 1009, .text),
    (1010, 1059, .real), (1060, 1070, .integer16), (1071, 1071, .integer32)]

def ValueType.ofCode? (code : Int) : Option ValueType :=
  (valueTypes.find? fun (low, high, _) => low ≤ code && code ≤ high).map fun (_, _, type) => type

inductive Value where
  | text (s : String)
  | real (x : Float)
  | integer (n : Int)

/-- Every character is a hexadecimal digit. -/
def isHexText (text : List Char) : Bool :=
  text.all fun c => (Number.hexValue? c).isSome

/-- The value of a type in a decoded line. Numbers may have blanks around them; an integer of 16
bits is written as any number and cut to its range. -/
def Value.ofLine? (encoding : Encoding) (line : List Char) : ValueType → Option Value
  | .text => some (text (encoding.textOf line))
  | .real => (Number.float? (Text.trim line)).map real
  | .integer16 =>
    (Number.float? (Text.trim line)).map fun x => integer (Number.truncated (-32768) 32767 x)
  | .integer32 => ((Number.readInt (Nat.pow 2 31 - 1) (Text.trim line)).toOption).map integer
  | .integer64 => ((Number.readInt (Nat.pow 2 63 - 1) (Text.trim line)).toOption).map integer
  | .bytes => if isHexText line then some (text (String.ofList line)) else none

/-- A code and a value of its type. -/
structure Pair where
  code : Int
  value : Value

namespace Pair

def text? (p : Pair) : Option String :=
  match p.value with
  | .text s => some s
  | _ => none

def isMark (p : Pair) (code : Int) (s : String) : Bool :=
  p.code == code && p.text? == some s

/-- The pair starts a record or ends a section. -/
def isHead (p : Pair) : Bool := p.code == 0

/-- The pair holds a handle: hexadecimal digits, any number of them, with blanks around. -/
def isHandle (p : Pair) : Bool :=
  isHexText (Text.trim (p.text?.getD "").toList)

def isComment (p : Pair) : Bool := p.code == 999

end Pair

/-- What stands next in a list of lines. A blank code line and the end of the lines are gaps; the
lines behind a pair or a fault are fewer. -/
inductive Next (count : Nat) where
  | pair (p : Pair) (rest : List Line) (shorter : rest.length < count)
  | fault (rest : List Line) (shorter : rest.length < count)
  | gap (rest : List Line) (short : rest.length ≤ count)

theorem shorter_trans {rest : List Line} {m n : Nat} (shorter : rest.length < m) (h : m ≤ n) :
    rest.length < n :=
  Nat.lt_of_lt_of_le shorter h

theorem short_trans {rest : List Line} {m n : Nat} (short : rest.length ≤ m) (h : m ≤ n) :
    rest.length ≤ n :=
  Nat.le_trans short h

theorem short_self (lines : List Line) : lines.length ≤ lines.length :=
  Nat.le_refl _

theorem short_of_lt {rest lines : List Line} (shorter : rest.length < lines.length) :
    rest.length ≤ lines.length :=
  Nat.le_of_lt shorter

theorem short_of_shorter {farther rest lines : List Line} (h : farther.length ≤ rest.length)
    (shorter : rest.length < lines.length) : farther.length ≤ lines.length :=
  Nat.le_trans h (Nat.le_of_lt shorter)

/-- The same seen from further in front. -/
def Next.weaken {m n : Nat} (h : m ≤ n) : Next m → Next n
  | pair p rest shorter => pair p rest (shorter_trans shorter h)
  | fault rest shorter => fault rest (shorter_trans shorter h)
  | gap rest short => gap rest (short_trans short h)

/-- The pair that a code and a value line make. -/
def Pair.ofLine? (encoding : Encoding) (code : Int) (line : Line) : Option Pair := do
  let type ← ValueType.ofCode? code
  let text ← encoding.decode? line
  let value ← Value.ofLine? encoding text type
  some ⟨code, value⟩

theorem length_tail_lt_succ (rest : List Line) : rest.tail.length < rest.length + 1 := by
  rw [List.length_tail]
  omega

/-- What stands next, comments not counted. A code line that cannot be read is a fault of its own; a
value that cannot be read is one together with its code. Codes are not encoded as texts are and may
have a byte order mark, or what is left of one; a value that is missing at the end of the lines
counts as empty. -/
def next (encoding : Encoding) : (lines : List Line) → Next lines.length
  | [] => .gap [] (Nat.le_refl _)
  | codeLine :: rest =>
    match (Encoding.windows1252.decode? (codeLine.unmarked byteOrderMark)).map Text.trim with
    | none => .fault rest (Nat.lt_succ_self _)
    | some [] => .gap rest (Nat.le_succ _)
    | some code =>
      match Number.int32? code with
      | none => .fault rest (Nat.lt_succ_self _)
      | some code =>
        match Pair.ofLine? encoding code (rest.headD []) with
        | none => .fault rest.tail (length_tail_lt_succ rest)
        | some p =>
          if p.isComment then
            (next encoding rest.tail).weaken (Nat.le_of_lt (length_tail_lt_succ rest))
          else .pair p rest.tail (length_tail_lt_succ rest)
termination_by lines => lines.length
decreasing_by exact length_tail_lt_succ rest

end Turnery.Dxf
