import Turnery.Number.Literal
import Turnery.Number.Radix

/-!
# The lexical level of TOML

Blanks, comments, keys, strings, numbers and moments in time. Each function takes what it reads off
the front of a text and returns the rest.
-/

namespace Turnery.Toml.Lexical

def isBlank (c : Char) : Bool := c == ' ' || c == '\t'

/-- The text without the blanks at its front. -/
def skipBlanks (text : List Char) : List Char := text.dropWhile isBlank

/-- The characters that may stand in comments: all but the controls other than the tabulator. -/
def isVisible (c : Char) : Bool :=
  c == '\t' || (0x20 ≤ c.toNat && c.toNat != 0x7F)

/-- The text behind a line end. -/
def newline? : List Char → Option (List Char)
  | '\n' :: rest => some rest
  | '\r' :: '\n' :: rest => some rest
  | _ => none

/-- The text behind a comment, if one stands at the front. -/
def skipComment : List Char → List Char
  | '#' :: rest => rest.dropWhile isVisible
  | text => text

/-- The text behind the rest of a line on which nothing but blanks and a comment may follow. -/
def lineEnd? (text : List Char) : Option (List Char) :=
  match skipComment (skipBlanks text) with
  | [] => some []
  | rest => newline? rest

/-- The text behind blanks, line ends and comments, each ended by its line end. -/
def skipLines? (inComment : Bool) : List Char → Option (List Char)
  | [] => some []
  | '\n' :: rest => skipLines? false rest
  | '\r' :: '\n' :: rest => skipLines? false rest
  | c :: rest =>
    if inComment then (if isVisible c then skipLines? true rest else none)
    else if isBlank c then skipLines? false rest
    else if c == '#' then skipLines? true rest
    else some (c :: rest)

/-- The characters that stand for themselves in a string with the given delimiter. -/
def isPlain (delimiter : Char) (c : Char) : Bool :=
  isVisible c && c != delimiter

/-- The character of a code point in hexadecimal digits. -/
def codePoint? (ds : List Char) : Option Char := do
  let n ← Number.natIn? 16 ds
  if n.isValidChar then some (Char.ofNat n) else none

def escaped? : Char → Option Char
  | 'b' => some '\x08'
  | 't' => some '\t'
  | 'n' => some '\n'
  | 'f' => some '\x0c'
  | 'r' => some '\r'
  | '"' => some '"'
  | '\\' => some '\\'
  | _ => none

/-- The character of an escape behind its backslash. -/
def escape? : List Char → Option (Char × List Char)
  | 'u' :: a :: b :: c :: d :: rest => (codePoint? [a, b, c, d]).map (·, rest)
  | 'U' :: a :: b :: c :: d :: e :: f :: g :: h :: rest =>
    (codePoint? [a, b, c, d, e, f, g, h]).map (·, rest)
  | c :: rest => (escaped? c).map (·, rest)
  | [] => none

theorem escape?_length {text rest : List Char} {c : Char} (h : escape? text = some (c, rest)) :
    rest.length < text.length := by
  unfold escape? at h
  split at h
  all_goals first
    | cases h
    | obtain ⟨x, _, heq⟩ := Option.map_eq_some_iff.1 h
      simp only [Prod.mk.injEq] at heq
      rw [← heq.2]
      simp only [List.length_cons]
      omega

/-- A basic string behind its opening quotation mark. -/
def basic? : List Char → Option (List Char × List Char)
  | [] => none
  | '"' :: rest => some ([], rest)
  | '\\' :: rest =>
    match _h : escape? rest with
    | none => none
    | some (c, rest') => (basic? rest').map fun (cs, rest) => (c :: cs, rest)
  | c :: rest => if isPlain '"' c then (basic? rest).map fun (cs, rest) => (c :: cs, rest) else none
termination_by text => text.length
decreasing_by
  · have := escape?_length _h
    simp only [List.length_cons]
    omega
  · simp only [List.length_cons]
    omega

/-- A literal string behind its opening apostrophe. -/
def literal? : List Char → Option (List Char × List Char)
  | [] => none
  | '\'' :: rest => some ([], rest)
  | c :: rest =>
    if isPlain '\'' c then (literal? rest).map fun (cs, rest) => (c :: cs, rest) else none

/-- The text behind three delimiters; up to two more in front of them belong to the string. -/
def closing? (delimiter : Char) (text : List Char) : Option (List Char × List Char) :=
  let count := (text.takeWhile (· == delimiter)).length
  if count < 3 then none
  else
    let extra := min (count - 3) 2
    some (List.replicate extra delimiter, text.drop (extra + 3))

/-- The text without the blanks and line ends at its front. -/
def skipBlankLines : List Char → List Char
  | '\n' :: rest => skipBlankLines rest
  | '\r' :: '\n' :: rest => skipBlankLines rest
  | c :: rest => if isBlank c then skipBlankLines rest else c :: rest
  | [] => []

theorem skipBlankLines_length (text : List Char) : (skipBlankLines text).length ≤ text.length := by
  fun_induction skipBlankLines text with
  | case1 rest ih => simp only [List.length_cons]; omega
  | case2 rest ih => simp only [List.length_cons]; omega
  | case3 c rest _ _ _ ih => simp only [List.length_cons]; omega
  | case4 => simp
  | case5 => simp

/-- The text behind a line end that a backslash has hidden, and behind the blanks and line ends that
follow. -/
def hiddenNewline? (text : List Char) : Option (List Char) :=
  (newline? (skipBlanks text)).map skipBlankLines

theorem newline?_length {text rest : List Char} (h : newline? text = some rest) :
    rest.length < text.length := by
  unfold newline? at h
  split at h
  · injection h with h; subst h; exact Nat.lt_succ_self _
  · injection h with h; subst h; exact Nat.lt_succ_of_lt (Nat.lt_succ_self _)
  · contradiction

theorem hiddenNewline?_length {text rest : List Char} (h : hiddenNewline? text = some rest) :
    rest.length < text.length := by
  obtain ⟨r, hr, rfl⟩ := Option.map_eq_some_iff.1 h
  have h1 := newline?_length hr
  have h2 := skipBlankLines_length r
  have h3 := (List.dropWhile_suffix (p := isBlank) (l := text)).length_le
  simp only [skipBlanks] at h1
  omega

/-- A basic string over several lines, behind its opening. -/
def basicLines? : List Char → Option (List Char × List Char)
  | [] => none
  | '\n' :: rest => (basicLines? rest).map fun (cs, rest) => ('\n' :: cs, rest)
  | '\r' :: '\n' :: rest => (basicLines? rest).map fun (cs, rest) => ('\n' :: cs, rest)
  | '"' :: rest =>
    match closing? '"' ('"' :: rest) with
    | some result => some result
    | none => (basicLines? rest).map fun (cs, rest) => ('"' :: cs, rest)
  | '\\' :: rest =>
    match _h : hiddenNewline? rest with
    | some rest' => basicLines? rest'
    | none =>
      match _h : escape? rest with
      | none => none
      | some (c, rest') => (basicLines? rest').map fun (cs, rest) => (c :: cs, rest)
  | c :: rest =>
    if isPlain '"' c then (basicLines? rest).map fun (cs, rest) => (c :: cs, rest) else none
termination_by text => text.length
decreasing_by
  · simp only [List.length_cons]; omega
  · simp only [List.length_cons]; omega
  · simp only [List.length_cons]; omega
  · have := hiddenNewline?_length _h
    simp only [List.length_cons]
    omega
  · have := escape?_length _h
    simp only [List.length_cons]
    omega
  · simp only [List.length_cons]; omega

/-- A literal string over several lines, behind its opening. -/
def literalLines? : List Char → Option (List Char × List Char)
  | [] => none
  | '\n' :: rest => (literalLines? rest).map fun (cs, rest) => ('\n' :: cs, rest)
  | '\r' :: '\n' :: rest => (literalLines? rest).map fun (cs, rest) => ('\n' :: cs, rest)
  | '\'' :: rest =>
    match closing? '\'' ('\'' :: rest) with
    | some result => some result
    | none => (literalLines? rest).map fun (cs, rest) => ('\'' :: cs, rest)
  | c :: rest =>
    if isPlain '\'' c then (literalLines? rest).map fun (cs, rest) => (c :: cs, rest) else none

/-- The text without a line end at its front. -/
def skipNewline (text : List Char) : List Char :=
  (newline? text).getD text

def string? : List Char → Option (List Char × List Char)
  | '"' :: '"' :: '"' :: rest => basicLines? (skipNewline rest)
  | '"' :: rest => basic? rest
  | '\'' :: '\'' :: '\'' :: rest => literalLines? (skipNewline rest)
  | '\'' :: rest => literal? rest
  | _ => none

def isBare (c : Char) : Bool :=
  c.isAlphanum || c == '-' || c == '_'

/-- One part of a key: a bare word or a string within a line. -/
def simpleKey? : List Char → Option (String × List Char)
  | '"' :: rest => (basic? rest).map fun (cs, rest) => (String.ofList cs, rest)
  | '\'' :: rest => (literal? rest).map fun (cs, rest) => (String.ofList cs, rest)
  | text =>
    let word := text.takeWhile isBare
    if word.isEmpty then none else some (String.ofList word, text.drop word.length)

/-- The parts of a key, of which there are at most a number; blanks may stand around each. -/
def keyParts? : Nat → List Char → Option (List String × List Char)
  | 0, _ => none
  | room + 1, text => do
    let (part, rest) ← simpleKey? (skipBlanks text)
    match skipBlanks rest with
    | '.' :: rest => do
      let (parts, rest) ← keyParts? room rest
      some (part :: parts, rest)
    | rest => some ([part], rest)

/-- How many parts a key may have. -/
def maxKeyParts : Nat := 79

/-- A key as the path to its table and the part that is the key there. -/
def key? (text : List Char) : Option ((List String × String) × List Char) := do
  let (parts, rest) ← keyParts? maxKeyParts text
  let last ← parts.getLast?
  some ((parts.dropLast, last), rest)

/-- Digits of a class behind a first one; an underscore may stand between two. -/
def moreDigits? (isDigit : Char → Bool) : List Char → Option (List Char × List Char)
  | [] => some ([], [])
  | '_' :: c :: rest =>
    if isDigit c then (moreDigits? isDigit rest).map fun (ds, rest) => (c :: ds, rest) else none
  | c :: rest =>
    if c == '_' then none
    else if isDigit c then (moreDigits? isDigit rest).map fun (ds, rest) => (c :: ds, rest)
    else some ([], c :: rest)

def digits? (isDigit : Char → Bool) : List Char → Option (List Char × List Char)
  | [] => none
  | c :: rest =>
    if isDigit c then (moreDigits? isDigit rest).map fun (ds, rest) => (c :: ds, rest) else none

/-- A whole part: one zero, or digits of which the first is not zero. -/
def whole? : List Char → Option (List Char × List Char)
  | '0' :: rest => some (['0'], rest)
  | text => digits? Char.isDigit text

/-- The exponent at the front of a text: the digits with their sign. -/
def exponent? : List Char → Option (Int × List Char)
  | e :: text =>
    if e == 'e' || e == 'E' then do
      let (negative, text) := Number.splitSign text
      let (ds, rest) ← digits? Char.isDigit text
      let n : Int := Number.natOfDigits ds
      some (if negative then -n else n, rest)
    else some (0, e :: text)
  | [] => some (0, [])

/-- The words for values that digits cannot write. -/
def word? : List Char → Option (Float × List Char)
  | 'i' :: 'n' :: 'f' :: rest => some (1 / 0, rest)
  | 'n' :: 'a' :: 'n' :: rest => some (0 / 0, rest)
  | _ => none

/-- A real: a whole part with a fraction, an exponent or both, or a word. A positive one must not be
too large. -/
def real? (text : List Char) : Option (Float × List Char) := do
  let (negative, body) := Number.splitSign text
  let signed (x : Float) := if negative then -x else x
  match word? body with
  | some (x, rest) => some (signed x, rest)
  | none =>
    let (whole, afterWhole) ← whole? body
    let (fraction, afterFraction) ← match afterWhole with
      | '.' :: rest => digits? Char.isDigit rest
      | rest => some ([], rest)
    let (exponent, rest) ← exponent? afterFraction
    if afterWhole.length == rest.length then none
    else
      let x := Number.Numeral.toFloat
        ⟨negative, Number.natOfDigits (whole ++ fraction), exponent - (fraction.length : Int)⟩
      if x.isInf && !negative then none else some (x, rest)

def inRange? (n : Int) : Option Int :=
  if -n ≤ Nat.pow 2 63 && n < Nat.pow 2 63 then some n else none

/-- The base that a letter behind a zero stands for. -/
def base? : Char → Option Nat
  | 'x' => some 16
  | 'o' => some 8
  | 'b' => some 2
  | _ => none

def decimal? (text : List Char) : Option (Int × List Char) := do
  let (negative, body) := Number.splitSign text
  let (ds, rest) ← whole? body
  let magnitude : Int := Number.natOfDigits ds
  let n ← inRange? (if negative then -magnitude else magnitude)
  some (n, rest)

/-- An integer: with a sign in decimal digits, without one also in the digits of another base. -/
def integer? : List Char → Option (Int × List Char)
  | '0' :: c :: rest =>
    match base? c with
    | none => decimal? ('0' :: c :: rest)
    | some base => do
      let (ds, rest) ← digits? (fun d => (Number.digitIn? base d).isSome) rest
      let n ← Number.natIn? base ds
      let n ← inRange? n
      some (n, rest)
  | text => decimal? text

/-- A number of exactly so many digits. -/
def fixed? (count : Nat) (text : List Char) : Option (Nat × List Char) :=
  let ds := text.take count
  if ds.length == count && ds.all Char.isDigit then some (Number.natOfDigits ds, text.drop count)
  else none

/-- The rest of a text behind a character. -/
def expect? (c : Char) : List Char → Option (List Char)
  | d :: rest => if d == c then some rest else none
  | [] => none

/-- The year has a leap day. -/
def isLeapYear (year : Nat) : Bool :=
  (year % 4 == 0 && year % 100 != 0) || year % 400 == 0

def daysIn (year month : Nat) : Nat :=
  if month == 2 then (if isLeapYear year then 29 else 28)
  else if [4, 6, 9, 11].contains month then 30
  else 31

def date? (text : List Char) : Option (List Char) := do
  let (year, text) ← fixed? 4 text
  let (month, text) ← fixed? 2 (← expect? '-' text)
  let (day, text) ← fixed? 2 (← expect? '-' text)
  if 1 ≤ month && month ≤ 12 && 1 ≤ day && day ≤ daysIn year month then some text else none

def hourMinute? (text : List Char) : Option (List Char) := do
  let (hour, text) ← fixed? 2 text
  let (minute, text) ← fixed? 2 (← expect? ':' text)
  if hour ≤ 23 && minute ≤ 59 then some text else none

/-- The text behind a time; a leap second is allowed for. -/
def time? (text : List Char) : Option (List Char) := do
  let text ← hourMinute? text
  let (second, text) ← fixed? 2 (← expect? ':' text)
  if 60 < second then none
  else
    match text with
    | '.' :: c :: rest => if c.isDigit then some (rest.dropWhile Char.isDigit) else some text
    | text => some text

/-- The text behind an offset from universal time, if one stands at the front. -/
def skipOffset : List Char → List Char
  | 'Z' :: rest => rest
  | 'z' :: rest => rest
  | '+' :: rest => (hourMinute? rest).getD ('+' :: rest)
  | '-' :: rest => (hourMinute? rest).getD ('-' :: rest)
  | text => text

def separator? : List Char → Option (List Char)
  | 'T' :: rest => some rest
  | 't' :: rest => some rest
  | ' ' :: rest => some rest
  | _ => none

/-- The text behind a moment: a date, a time, or both with an offset. -/
def moment? (text : List Char) : Option (List Char) :=
  match date? text with
  | none => time? text
  | some rest =>
    match (separator? rest).bind time? with
    | none => some rest
    | some rest => some (skipOffset rest)

end Turnery.Toml.Lexical
