import Turnery.Number.Fixed
import Turnery.Number.Literal
import Turnery.Number.Radix
import Turnery.Shell.Octets

/-!
# Formats

Backslash escapes, and formats whose directives are filled in by arguments. A format is used again
as long as arguments are left.
-/

namespace Turnery.Shell.Format

/-- Octal digits at the front, at most so many: the byte they write and the rest. -/
def octal : Nat → Nat → Octets → Char × Octets
  | 0, value, text => (Char.ofNat (value % 256), text)
  | _ + 1, value, [] => (Char.ofNat (value % 256), [])
  | more + 1, value, c :: rest =>
    match Number.digitIn? 8 c with
    | some d => octal more (8 * value + d) rest
    | none => (Char.ofNat (value % 256), c :: rest)

def letter? : Char → Option Char
  | 'a' => some '\x07'
  | 'b' => some '\x08'
  | 'e' => some '\x1b'
  | 'f' => some '\x0c'
  | 'n' => some '\n'
  | 'r' => some '\r'
  | 't' => some '\t'
  | 'v' => some '\x0b'
  | '\\' => some '\\'
  | _ => none

/-- What the text behind a backslash stands for, and the rest. A backslash that begins no escape
stands for itself. -/
def escape (text : Octets) : Char × Octets :=
  match text with
  | [] => ('\\', [])
  | c :: rest =>
    match letter? c with
    | some d => (d, rest)
    | none => if (Number.digitIn? 8 c).isSome then octal 3 0 text else ('\\', text)

/-- A text with its escapes replaced, of at most so many characters; whether it asks for the end of
all output. -/
def unescape : Nat → Octets → Octets × Bool
  | 0, _ => ([], false)
  | _ + 1, [] => ([], false)
  | more + 1, c :: rest =>
    if c != '\\' then
      let (text, ends) := unescape more rest
      (c :: text, ends)
    else
      match rest with
      | 'c' :: _ => ([], true)
      | '0' :: rest =>
        let (d, rest) := octal 3 0 rest
        let (text, ends) := unescape more rest
        (d :: text, ends)
      | rest =>
        let (d, rest) := escape rest
        let (text, ends) := unescape more rest
        (d :: text, ends)

/-- The line that words make, with escapes replaced. -/
def line (newline : Bool) (words : List Octets) : Octets :=
  let joined := [' '].intercalate words
  let (text, ends) := unescape joined.length joined
  if newline && !ends then text ++ ['\n'] else text

structure Directive where
  /-- How it is written. -/
  text : Octets
  flags : List Char
  width : Nat
  precision : Option Nat
  conversion : Char

/-- What has been made so far: the text, reversed, the complaints, the arguments that are left, and
whether the output has ended or an argument was used. -/
structure Progress where
  text : Octets
  complaints : List String
  /-- The status that the complaints come to. -/
  status : Nat
  arguments : List Octets
  ended : Bool
  used : Bool

namespace Progress

def add (p : Progress) (text : Octets) : Progress :=
  { p with text := text.reverse ++ p.text }

def complain (p : Progress) (message : String) : Progress :=
  { p with complaints := p.complaints ++ [message], status := 1 }

/-- Complains about a directive that has no meaning, which ends the output. -/
def refuse (p : Progress) (directive : String) : Progress :=
  { p with
    complaints := p.complaints ++ [directive ++ ": invalid directive"]
    status := 2
    ended := true }

def take (p : Progress) : Octets × Progress :=
  match p.arguments with
  | [] => ([], p)
  | a :: rest => (a, { p with arguments := rest, used := true })

end Progress

/-- A number at the front of a text, with sign and base, and the rest. -/
def integerAt (text : Octets) : Int × Octets :=
  let body := text.dropWhile fun c => c == ' ' || c == '\t' || c == '\n'
  let (negative, body) := Number.splitSign body
  let (base, ds) := match body with
    | '0' :: 'x' :: rest => (16, rest)
    | '0' :: 'X' :: rest => (16, rest)
    | '0' :: _ => (8, body)
    | _ => (10, body)
  let digits := ds.takeWhile fun c => (Number.digitIn? base c).isSome
  let n : Int := (Number.natIn? base digits).getD 0
  (if negative then -n else n, if digits.isEmpty then (if base == 16 then ds else text)
    else ds.drop digits.length)

def integer (argument : Octets) : Int × Option String :=
  match argument with
  | [] => (0, none)
  | '"' :: c :: _ => (c.toNat, none)
  | '\'' :: c :: _ => (c.toNat, none)
  | _ =>
    let (n, rest) := integerAt argument
    if rest.isEmpty then (n, none)
    else if rest == argument then (n, some (Octets.toText argument ++ ": expected numeric value"))
    else (n, some (Octets.toText argument ++ ": not completely converted"))

def pad (d : Directive) (fill : Char) (text : Octets) : Octets :=
  let missing := List.replicate (d.width - text.length) fill
  if d.flags.contains '-' then text ++ missing else missing ++ text

def digitsOf (conversion : Char) (n : Nat) : Octets :=
  match conversion with
  | 'o' => Nat.toDigits 8 n
  | 'x' => Nat.toDigits 16 n
  | 'X' => (Nat.toDigits 16 n).map Char.toUpper
  | _ => Number.digits n

def integerText (d : Directive) (n : Int) : Octets :=
  let isSigned := d.conversion == 'd' || d.conversion == 'i'
  let magnitude := if isSigned then n.natAbs else (n.emod (Nat.pow 2 64)).toNat
  let ds := digitsOf d.conversion magnitude
  let ds := List.replicate (d.precision.getD 1 - ds.length) '0' ++ ds
  let sign := if !isSigned then [] else if n < 0 then ['-'] else if d.flags.contains '+' then ['+']
    else if d.flags.contains ' ' then [' '] else []
  if d.flags.contains '0' && !d.flags.contains '-' && d.precision.isNone then
    sign ++ List.replicate (d.width - sign.length - ds.length) '0' ++ ds
  else pad d ' ' (sign ++ ds)

/-- A number laid out with a fixed count of decimals. -/
def decimalText (d : Directive) (x : Float) : Octets :=
  let places := d.precision.getD 6
  match Number.Binary64.ofFloat x with
  | .finite negative mantissa exponent =>
    let units := Number.nearestUnits .toEven places mantissa exponent
    let ds := Number.digits (units / Nat.pow 10 places) ++
      (if places == 0 then [] else '.' :: Number.lastDigits places units)
    let sign := if negative then ['-'] else if d.flags.contains '+' then ['+'] else []
    if d.flags.contains '0' && !d.flags.contains '-' then
      sign ++ List.replicate (d.width - sign.length - ds.length) '0' ++ ds
    else pad d ' ' (sign ++ ds)
  | _ => pad d ' ' ((Number.trimmedDecimal places x).toList.map Char.toLower)

/-- The multiple of `10 ^ -places` nearest to a quotient, counted in such units. -/
def unitsOf (numerator denominator : Nat) (places : Int) : Nat :=
  if 0 ≤ places then Number.roundDiv .toEven (numerator * Nat.pow 10 places.toNat) denominator
  else Number.roundDiv .toEven numerator (denominator * Nat.pow 10 (-places).toNat)

/-- The exponent of the first digit of a quotient that is not zero. -/
def leadOf (numerator denominator : Nat) : Int :=
  if denominator ≤ numerator then ((Number.digits (numerator / denominator)).length : Int) - 1
  else
    let shift := (Number.digits (denominator / numerator)).length
    if denominator ≤ numerator * Nat.pow 10 (shift - 1) then 1 - (shift : Int) else -(shift : Int)

/-- So many digits of a quotient, rounded, and the exponent of the first. -/
def leadingDigits (count numerator denominator : Nat) : Octets × Int :=
  if numerator == 0 then (List.replicate count '0', 0)
  else
    let lead := leadOf numerator denominator
    let ds := Number.digits (unitsOf numerator denominator ((count : Int) - 1 - lead))
    if count < ds.length then (ds.take count, lead + 1) else (ds, lead)

/-- A number laid out with an exponent, or with a count of digits in the form that suits its
size. -/
def exponentText (d : Directive) (x : Float) : Octets :=
  let isUpper := d.conversion.isUpper
  let isGeneral := d.conversion.toLower == 'g'
  match Number.Binary64.ofFloat x with
  | .finite negative mantissa exponent =>
    let count := if isGeneral then max 1 (d.precision.getD 6) else d.precision.getD 6 + 1
    let (ds, lead) := leadingDigits count (Number.Binary64.numerator mantissa exponent)
      (Number.Binary64.denominator exponent)
    let trimmed (ds : Octets) :=
      if isGeneral && !d.flags.contains '#' then Number.dropTrailingZeros ds else ds
    let fraction (ds : Octets) := if ds.isEmpty then [] else '.' :: ds
    let power := Number.digits lead.natAbs
    let body :=
      if isGeneral && -4 ≤ lead && lead < count then
        if lead < 0 then '0' :: fraction (trimmed (List.replicate (-lead - 1).toNat '0' ++ ds))
        else ds.take (lead.toNat + 1) ++ fraction (trimmed (ds.drop (lead.toNat + 1)))
      else
        ds.take 1 ++ fraction (trimmed (ds.drop 1)) ++ (if isUpper then 'E' else 'e') ::
          (if lead < 0 then '-' else '+') :: List.replicate (2 - power.length) '0' ++ power
    let sign := if negative then ['-'] else if d.flags.contains '+' then ['+']
      else if d.flags.contains ' ' then [' '] else []
    if d.flags.contains '0' && !d.flags.contains '-' then
      sign ++ List.replicate (d.width - sign.length - body.length) '0' ++ body
    else pad d ' ' (sign ++ body)
  | _ =>
    pad d ' ' ((Number.trimmedDecimal 6 x).toList.map fun c => if isUpper then c.toUpper
      else c.toLower)

def fill (p : Progress) (d : Directive) : Progress :=
  let truncated (text : Octets) := match d.precision with
    | some n => text.take n
    | none => text
  let (argument, q) := p.take
  if d.conversion == 's' then q.add (pad d ' ' (truncated argument))
  else if d.conversion == 'c' then q.add (pad d ' ' [argument.headD '\x00'])
  else if d.conversion == 'b' then
    let (text, ends) := unescape argument.length argument
    { q.add (pad d ' ' (truncated text)) with ended := ends }
  else if ['d', 'i', 'o', 'u', 'x', 'X'].contains d.conversion then
    let (n, complaint) := integer argument
    let q := q.add (integerText d n)
    match complaint with
    | some message => q.complain message
    | none => q
  else if d.conversion == 'f' then
    match if argument.isEmpty then some 0 else Number.float? argument with
    | some x => q.add (decimalText d x)
    | none =>
      (q.add (decimalText d 0)).complain (Octets.toText argument ++ ": expected numeric value")
  else if ['e', 'E', 'g', 'G'].contains d.conversion then
    match if argument.isEmpty then some 0 else Number.float? argument with
    | some x => q.add (exponentText d x)
    | none =>
      (q.add (exponentText d 0)).complain (Octets.toText argument ++ ": expected numeric value")
  else p.refuse (Octets.toText ('%' :: d.text))

/-- A number at the front of a format, which an argument may give, and the rest. -/
def count (p : Progress) (text : Octets) : Option Nat × Octets × Progress :=
  match text with
  | '*' :: rest =>
    let (argument, p) := p.take
    (some (integer argument).1.toNat, rest, p)
  | _ =>
    let ds := text.takeWhile Char.isDigit
    (if ds.isEmpty then none else some (Number.natOfDigits ds), text.drop ds.length, p)

/-- The directive behind a percent sign, and the rest. -/
def directive? (p : Progress) (text : Octets) : Option (Directive × Octets × Progress) :=
  let flags := text.takeWhile fun c => ['#', '-', '+', ' ', '0'].contains c
  let (width, rest, p) := count p (text.drop flags.length)
  let (precision, rest, p) := match rest with
    | '.' :: rest =>
      let (n, rest, p) := count p rest
      (some (n.getD 0), rest, p)
    | _ => (none, rest, p)
  match rest with
  | [] => none
  | c :: rest =>
    some (⟨text.take (text.length - rest.length), flags, width.getD 0, precision, c⟩, rest, p)

def once : Nat → Progress → Octets → Progress
  | 0, p, _ => p
  | _ + 1, p, [] => p
  | more + 1, p, c :: rest =>
    if p.ended then p
    else if c == '\\' then
      let (d, rest) := escape rest
      once more (p.add [d]) rest
    else if c == '%' then
      match rest with
      | '%' :: rest => once more (p.add ['%']) rest
      | rest =>
        match directive? p rest with
        | none => p.refuse "%"
        | some (d, rest, p) => once more (fill p d) rest
    else once more (p.add [c]) rest

/-- Goes through a format as often as there are arguments. -/
def passes (format : Octets) : Nat → Progress → Progress
  | 0, p => p
  | more + 1, p =>
    let p := once (format.length + 1) { p with used := false } format
    if p.ended || !p.used || p.arguments.isEmpty then p else passes format more p

def print (format : Octets) (arguments : List Octets) : Progress :=
  let p := passes format (arguments.length + 1) ⟨[], [], 0, arguments, false, false⟩
  { p with text := p.text.reverse }

end Turnery.Shell.Format
