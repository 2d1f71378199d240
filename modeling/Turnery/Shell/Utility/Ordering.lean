import Turnery.Shell.Numeral
import Turnery.Shell.Utility.Display

/-!
# Putting lines in order

Lines are compared by keys, which are parts of them, and put in order; equal lines that follow each
other are told apart or counted.
-/

namespace Turnery.Shell.Utility

namespace Sorting

structure Manner where
  isNumeric : Bool
  isReversed : Bool
  ignoresCase : Bool
  skipsBlanks : Bool
  onlyWords : Bool

namespace Manner

/-- The letters that tell how keys are compared. -/
def letters : String := "nrfbdgh"

def ofLetters (has : Char → Bool) : Manner :=
  ⟨has 'n' || has 'g' || has 'h', has 'r', has 'f', has 'b', has 'd'⟩

end Manner

/-- A place in a line: a field and a character of it, both counted from one. The character zero
stands for the end of the field. -/
structure Mark where
  field : Nat
  character : Nat

structure Key where
  start : Mark
  finish : Option Mark
  manner : Manner

def isBlank (c : Char) : Bool :=
  c == ' ' || c == '\t'

/-- A number and, behind a point, another, and the rest. -/
def mark (standard : Nat) (text : Octets) : Mark × Octets :=
  let field := text.takeWhile Char.isDigit
  match text.drop field.length with
  | '.' :: rest =>
    let character := rest.takeWhile Char.isDigit
    (⟨Number.natOfDigits field, Number.natOfDigits character⟩, rest.drop character.length)
  | rest => (⟨Number.natOfDigits field, standard⟩, rest)

/-- The key that a text writes, or a complaint. A key without letters is compared as all lines
are. -/
def key (usual : Manner) (text : Octets) : Except String Key :=
  let (start, rest) := mark 1 text
  let letters := rest.takeWhile fun c => Manner.letters.contains c
  let (finish, rest) := match rest.drop letters.length with
    | ',' :: rest =>
      let (finish, rest) := mark 0 rest
      (some finish, rest)
    | rest => (none, rest)
  let more := rest.takeWhile fun c => Manner.letters.contains c
  let all := letters ++ more
  let manner := if all.isEmpty then usual else Manner.ofLetters all.contains
  if start.field == 0 then
    .error
      ((if text.head?.any Char.isDigit then "field number is zero: invalid field specification '"
        else "invalid number at field start: invalid count at start of '") ++
          Octets.toText text ++ "'")
  else if start.character == 0 then
    .error ("character offset is zero: invalid field specification '" ++ Octets.toText text ++ "'")
  else if rest.length != more.length then
    .error ("stray character in field spec: invalid field specification '" ++
      Octets.toText text ++ "'")
  else .ok ⟨start, finish, manner⟩

/-- What is left of a line behind a number of fields. Without a separator, blanks lead a field. -/
def behind (separator : Option Char) : Nat → Octets → Octets
  | 0, text => text
  | more + 1, text =>
    match separator with
    | some c => behind separator more ((text.dropWhile (· != c)).drop 1)
    | none => behind separator more ((text.dropWhile isBlank).dropWhile fun c => !isBlank c)

/-- What is left of a line from the end of a field on. -/
def behindField (separator : Option Char) (field : Nat) (text : Octets) : Octets :=
  match separator with
  | some c => (behind separator (field - 1) text).dropWhile (· != c)
  | none => behind separator field text

def part (separator : Option Char) (k : Key) (line : Octets) : Octets :=
  let skip (text : Octets) := if k.manner.skipsBlanks then text.dropWhile isBlank else text
  let front := (skip (behind separator (k.start.field - 1) line)).drop (k.start.character - 1)
  let left := match k.finish with
    | none => []
    | some ⟨field, 0⟩ => behindField separator field line
    | some ⟨field, character⟩ => (skip (behind separator (field - 1) line)).drop character
  front.take (front.length - left.length)

/-- The number at the front of a text, with a count of decimals. -/
def number (text : Octets) : Int × Nat :=
  let body := text.dropWhile isBlank
  let (negative, body) := match body with
    | '-' :: rest => (true, rest)
    | body => (false, body)
  let whole := body.takeWhile Char.isDigit
  let decimals := match body.drop whole.length with
    | '.' :: rest => rest.takeWhile Char.isDigit
    | _ => []
  let n : Int := Number.natOfDigits (whole ++ decimals)
  (if negative then -n else n, decimals.length)

/-- The order of two texts by the numbers at their fronts. -/
def numericOrder (a b : Octets) : Ordering :=
  let (m, i) := number a
  let (n, j) := number b
  compare (m * Nat.pow 10 j) (n * Nat.pow 10 i)

def keyOrder (m : Manner) (a b : Octets) : Ordering :=
  let prepared (text : Octets) :=
    let text := if m.onlyWords then text.filter fun c => c.isAlphanum || isBlank c else text
    if m.ignoresCase then text.map Char.toUpper else text
  let order := if m.isNumeric then numericOrder a b else Octets.order (prepared a) (prepared b)
  if m.isReversed then order.swap else order

structure Plan where
  keys : List Key
  separator : Option Char
  /-- Lines that are equal by all keys are compared as a whole, backwards if this says so. -/
  lastResort : Option Bool

def Plan.keysOrder (p : Plan) (a b : Octets) : Ordering :=
  p.keys.foldl (fun order k => order.then
    (keyOrder k.manner (part p.separator k a) (part p.separator k b))) .eq

def Plan.order (p : Plan) (a b : Octets) : Ordering :=
  (p.keysOrder a b).then
    (match p.lastResort with
      | some isReversed => if isReversed then (Octets.order a b).swap else Octets.order a b
      | none => .eq)

def vocabulary : Vocabulary where
  flags := "bcCdfghimMnrRsuVz"
  valued := "kotST"
  words :=
    [("check", 'c'), ("field-separator", 't'), ("ignore-case", 'f'), ("ignore-leading-blanks", 'b'),
    ("key", 'k'), ("numeric-sort", 'n'), ("output", 'o'), ("reverse", 'r'), ("stable", 's'),
    ("unique", 'u')]
  isOrdered := false

def planOf (c : Choices) : Except String Plan := do
  let usual := Manner.ofLetters c.has
  let keys ← (c.values 'k').mapM (key usual)
  let keys := if keys.isEmpty then [⟨⟨1, 1⟩, none, usual⟩] else keys
  let separator := match c.value? 't' with
    | some ['\\', '0'] => some '\x00'
    | some text => text.head?
    | none => none
  match c.value? 't' with
  | some [] => .error "empty tab"
  | some (a :: b :: rest) =>
    if a :: b :: rest == ['\\', '0'] then pure ()
    else .error ("multi-character tab '" ++ Octets.toText (a :: b :: rest) ++ "'")
  | _ => pure ()
  .ok ⟨keys, separator, if c.has 's' || c.has 'u' then none else some (c.has 'r')⟩

/-- The lines without those that are equal to the one before. -/
def distinct (p : Plan) : List Octets → List Octets
  | a :: b :: rest =>
    if p.keysOrder a b == .eq then distinct p (a :: rest) else a :: distinct p (b :: rest)
  | lines => lines

/-- The first line that should not stand behind the one before, with its number. -/
def disorder? (p : Plan) (unique : Bool) : Nat → List Octets → Option (Nat × Octets)
  | n, a :: b :: rest =>
    let isWrong := match p.order a b with
      | .gt => true
      | .eq => unique
      | .lt => false
    if isWrong then some (n + 1, b) else disorder? p unique (n + 1) (b :: rest)
  | _, _ => none

end Sorting

def sort : Utility :=
  choosing Sorting.vocabulary 2 fun name c => do
    match Sorting.planOf c with
    | .error message => do
      complain name message
      Act.setStatus 2
    | .ok p =>
      let texts ← (orInput c.operands).mapM fun path => do
        match ← load path with
        | .ok text => pure (some text)
        | .error reason => do
          let verb :=
            if (← get).workspace.contains (Octets.toText path) then "read failed: "
            else "cannot read: "
          complain name (verb ++ shown path ++ ": " ++ reason)
          Act.setStatus 2
          pure none
      if texts.all Option.isSome then
        let lines := texts.flatMap fun text => bareLines (text.getD [])
        if c.has 'c' || c.has 'C' then
          match Sorting.disorder? p (c.has 'u') 1 lines with
          | none => pure ()
          | some (n, line) => do
            if c.has 'c' then
              let place := Octets.toText ((orInput c.operands).headD []) ++ ":" ++ Number.natText n
              complain name (place ++ ": disorder: " ++ Octets.toText line)
            Act.setStatus 1
        else
          let sorted := lines.mergeSort fun a b => p.order a b != .gt
          let text := unlines (if c.has 'u' then Sorting.distinct p sorted else sorted)
          match c.value? 'o' with
          | none => Act.send 1 text
          | some path => do
            match (← get).workspace.write (Octets.toText path) (Octets.toBytes text) with
            | .ok w => modify fun s => { s with workspace := w }
            | .error e => do
              complain name ("open failed: " ++ shown path ++ ": " ++ e.reason)
              Act.setStatus 2

namespace Repetition

def vocabulary : Vocabulary where
  flags := "cdDiuz"
  valued := "fsw"
  words :=
    [("count", 'c'), ("repeated", 'd'), ("all-repeated", 'D'), ("skip-fields", 'f'),
      ("ignore-case", 'i'),
    ("skip-chars", 's'), ("unique", 'u'), ("check-chars", 'w')]
  isOrdered := false

def compared (c : Choices) (line : Octets) : Octets :=
  let count (letter : Char) := (c.value? letter).map Number.natOfDigits
  let text := (Sorting.behind none ((count 'f').getD 0) line).drop ((count 's').getD 0)
  let text := match count 'w' with
    | some n => text.take n
    | none => text
  if c.has 'i' then text.map Char.toUpper else text

/-- Groups of lines that follow each other and are equal in what is compared. -/
def groups (compared : Octets → Octets) : List Octets → List (List Octets)
  | [] => []
  | line :: rest =>
    match groups compared rest with
    | [] => [[line]]
    | [] :: others => [line] :: others
    | (next :: more) :: others =>
      if compared line == compared next then (line :: next :: more) :: others
      else [line] :: (next :: more) :: others

def shownOf (c : Choices) (group : List Octets) : List Octets :=
  let isSingle := group.length == 1
  if c.has 'D' then (if isSingle then [] else group)
  else if (c.has 'd' && isSingle) || (c.has 'u' && !isSingle) then []
  else (group.take 1).map fun line =>
    (if c.has 'c' then column 7 group.length ++ [' '] else []) ++ line

end Repetition

/-- Shows lines that follow each other and are equal only once. -/
def distinctLines : Utility :=
  choosing Repetition.vocabulary 1 fun name c => do
    match c.operands with
    | _ :: _ :: extra :: _ => refuse name ("extra operand " ++ quoted extra)
    | operands => do
      match ← load (operands.headD ['-']) with
      | .error reason => complain name (shown (operands.headD ['-']) ++ ": " ++ reason)
      | .ok text =>
        let groups := Repetition.groups (Repetition.compared c) (bareLines text)
        let text := unlines (groups.flatMap (Repetition.shownOf c))
        match operands.drop 1 with
        | [] => Act.send 1 text
        | path :: _ => do
          match (← get).workspace.write (Octets.toText path) (Octets.toBytes text) with
          | .ok w => modify fun s => { s with workspace := w }
          | .error e => complain name (shown path ++ ": " ++ e.reason)

end Turnery.Shell.Utility
