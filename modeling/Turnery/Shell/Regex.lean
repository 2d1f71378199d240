import Turnery.Number.Digits
import Turnery.Shell.Pattern

/-!
# Regular expressions

A regular expression describes pieces of lines. Of the pieces that begin at the first place where
one is found, the longest is taken; groups remember what parts of it they have described, and can be
referred to.
-/

namespace Turnery.Shell

inductive Regex where
  | empty
  | any
  /-- One of some ranges of characters, or none of them. -/
  | oneOf (excluded : Bool) (ranges : List (Char × Char))
  | lineStart
  | lineEnd
  /-- A place at which a word begins or ends, as the two answers say whether either is enough. -/
  | wordEdge (begins ends : Bool)
  | notEdge
  /-- No part of a word stands before a place, or behind it. -/
  | clear (isBefore : Bool)
  | sequence (first second : Regex)
  | either (first second : Regex)
  | repeated (body : Regex) (least : Nat) (most : Option Nat)
  | group (number : Nat) (body : Regex)
  | same (number : Nat)
  deriving Repr

namespace Regex

/-- A place in a line: the character before it, what follows, and what groups have described, the
latest first. -/
structure Spot where
  before : Option Char
  rest : Octets
  groups : List (Nat × Octets)

namespace Spot

def passed (s later : Spot) : Octets :=
  s.rest.take (s.rest.length - later.rest.length)

def skip (s : Spot) (text : Octets) : Spot :=
  { s with before := text.getLast?.or s.before, rest := s.rest.drop text.length }

def group (s : Spot) (number : Nat) : Octets :=
  (s.groups.lookup number).getD []

end Spot

def isWordSign (c : Char) : Bool :=
  c.isAlphanum || c == '_'

def beginsWord (s : Spot) : Bool :=
  s.rest.head?.any isWordSign && !s.before.any isWordSign

def endsWord (s : Spot) : Bool :=
  s.before.any isWordSign && !s.rest.head?.any isWordSign

/-- The spots that are reached by steps, of which at least a number is made and at most another; the
spot with the most steps comes first. Steps that lead nowhere are not repeated. -/
def again (step : Spot → List Spot) : Nat → Nat → Spot → List Spot
  | 0, least, s => if least == 0 then [s] else []
  | most + 1, least, s =>
    let next := step s
    let next := if least == 0 then next.filter fun t => t.rest.length < s.rest.length else next
    next.flatMap (again step most (least - 1)) ++ (if least == 0 then [s] else [])

def ends : Regex → Spot → List Spot
  | empty, s => [s]
  | any, s =>
    match s.rest with
    | [] => []
    | c :: rest => [{ s with before := some c, rest := rest }]
  | oneOf excluded ranges, s =>
    match s.rest with
    | [] => []
    | c :: rest =>
      if (ranges.any fun (low, high) => low ≤ c && c ≤ high) != excluded then
        [{ s with before := some c, rest := rest }]
      else []
  | lineStart, s => if s.before.isNone then [s] else []
  | lineEnd, s => if s.rest.isEmpty then [s] else []
  | wordEdge begins finishes, s =>
    if (begins && beginsWord s) || (finishes && endsWord s) then [s] else []
  | clear isBefore, s =>
    if (if isBefore then s.before else s.rest.head?).any isWordSign then [] else [s]
  | notEdge, s => if beginsWord s || endsWord s then [] else [s]
  | sequence first second, s => (first.ends s).flatMap fun t => second.ends t
  | either first second, s => first.ends s ++ second.ends s
  | repeated body least most, s =>
    again (fun t => body.ends t) (most.getD (s.rest.length + least)) least s
  | group number body, s =>
    (body.ends s).map fun t => { t with groups := (number, s.passed t) :: t.groups }
  | same number, s => if (s.group number).isPrefixOf s.rest then [s.skip (s.group number)] else []

/-- The longest of some pieces; of several the first. -/
def longest : List Spot → Option Spot
  | [] => none
  | s :: rest =>
    match longest rest with
    | some t => if t.rest.length < s.rest.length then some t else some s
    | none => some s

/-- A piece of a line that was found: what stands before it, the piece, and the spot behind it. -/
structure Found where
  front : Octets
  piece : Octets
  spot : Spot

/-- The first piece of a text that is described. -/
def find? (r : Regex) (before : Option Char) : Octets → Option Found
  | [] =>
    let s : Spot := ⟨before, [], []⟩
    (longest (r.ends s)).map fun t => ⟨[], s.passed t, t⟩
  | c :: rest =>
    let s : Spot := ⟨before, c :: rest, []⟩
    match longest (r.ends s) with
    | some t => some ⟨[], s.passed t, t⟩
    | none => (find? r (some c) rest).map fun f => { f with front := c :: f.front }

def occursIn (r : Regex) (line : Octets) : Bool :=
  (r.find? none line).isSome

/-- How regular expressions are written. -/
structure Style where
  /-- Operators stand without a backslash. -/
  isExtended : Bool
  /-- Small and capital letters are the same. -/
  ignoresCase : Bool
  /-- A backslash also writes characters that cannot be seen. -/
  hasEscapes : Bool

/-- What is left of a text, and how many groups have been opened. -/
structure Rest where
  text : Octets
  groups : Nat

abbrev Reader := StateT Rest (Except String)

def withCases (style : Style) (ranges : List (Char × Char)) : List (Char × Char) :=
  if !style.ignoresCase then ranges
  else
    ranges.flatMap fun (low, high) =>
      let shifted (from' to' : Char) (shift : Int) : List (Char × Char) :=
        let a := if low < from' then from' else low
        let b := if to' < high then to' else high
        if a ≤ b then [(Char.ofNat (a.toNat + shift).toNat, Char.ofNat (b.toNat + shift).toNat)]
        else []
      (low, high) :: shifted 'a' 'z' (-32) ++ shifted 'A' 'Z' 32

def char (style : Style) (c : Char) : Regex :=
  .oneOf false (withCases style [(c, c)])

def wordRanges : List (Char × Char) := [('0', '9'), ('A', 'Z'), ('_', '_'), ('a', 'z')]

def spaceRanges : List (Char × Char) := Pattern.classRanges "space"

/-- The complaint about brackets that are not closed. -/
def unclosedSet : String := "Unmatched [, [^, [:, [., or [="

/-- The ranges up to the closing bracket and the rest, of at most so many. A bracket that comes
first is a member. -/
def ranges (style : Style) : Nat → Bool → Octets → Except String (List (Char × Char) × Octets)
  | 0, _, _ | _, _, [] => .error unclosedSet
  | more + 1, isFirst, c :: rest => do
    if c == ']' && !isFirst then .ok ([], rest)
    else
      let item : Except String (List (Char × Char) × Option Char × Octets) :=
        match c, rest with
        | '[', ':' :: rest =>
          let name := rest.takeWhile (· != ':')
          let rs := Pattern.classRanges (String.ofList name)
          if rs.isEmpty then .error "Invalid character class name"
          else .ok (rs, none, rest.drop (name.length + 2))
        | '[', '=' :: d :: '=' :: ']' :: rest => .ok ([(d, d)], none, rest)
        | '[', '.' :: d :: '.' :: ']' :: rest => .ok ([(d, d)], some d, rest)
        | '\\', 'n' :: rest =>
          if style.hasEscapes then .ok ([], some '\n', rest) else .ok ([], some c, 'n' :: rest)
        | '\\', 't' :: rest =>
          if style.hasEscapes then .ok ([], some '\t', rest) else .ok ([], some c, 't' :: rest)
        | _, _ => .ok ([], some c, rest)
      let (rs, low, rest) ← item
      match low, rest with
      | some low, '-' :: high :: rest' =>
        if high == ']' then
          let (others, rest) ← ranges style more false rest
          .ok ((low, low) :: rs ++ others, rest)
        else
          let (high, rest') := match high, rest' with
            | '[', '.' :: d :: '.' :: ']' :: rest' => (d, rest')
            | high, rest' => (high, rest')
          if high < low then .error "Invalid range end"
          else
            let (others, rest) ← ranges style more false rest'
            .ok ((low, high) :: rs ++ others, rest)
      | some low, rest =>
        let (others, rest) ← ranges style more false rest
        .ok ((low, low) :: rs ++ others, rest)
      | none, rest =>
        let (others, rest) ← ranges style more false rest
        .ok (rs ++ others, rest)

/-- The set behind an opening bracket. -/
def bracketed (style : Style) : Reader Regex := do
  let r ← get
  let (excluded, text) := match r.text with
    | '^' :: text => (true, text)
    | text => (false, text)
  let (rs, text) ← (ranges style (text.length + 1) true text : Except String _)
  set { r with text := text }
  pure (.oneOf excluded (withCases style rs))

inductive Sign where
  | finish
  | opening
  | closing
  | choice
  | star
  | plus
  | optional
  | brace
  /-- Any other character; it was written with a backslash or not. -/
  | char (isEscaped : Bool) (c : Char)

/-- The mark at the front of a text, and what is left behind it. -/
def sign (style : Style) (text : Octets) : Sign × Octets :=
  let operator? (c : Char) : Option Sign :=
    match c with
    | '(' => some .opening
    | ')' => some .closing
    | '|' => some .choice
    | '+' => some .plus
    | '?' => some .optional
    | '{' => some .brace
    | _ => none
  match text with
  | [] => (.finish, [])
  | '*' :: rest => (.star, rest)
  | '\\' :: c :: rest =>
    ((if style.isExtended then none else operator? c).getD (.char true c), rest)
  | c :: rest => ((if style.isExtended then operator? c else none).getD (.char false c), rest)

/-- The bounds of a repetition behind a brace, and what is left, if it is well written. -/
def bounds? (style : Style) (text : Octets) : Option (Nat × Option Nat × Octets) :=
  let low := text.takeWhile Char.isDigit
  let rest := text.drop low.length
  let least := Number.natOfDigits low
  let (most, rest, isWritten) := match rest with
    | ',' :: rest =>
      let high := rest.takeWhile Char.isDigit
      (if high.isEmpty then none else some (Number.natOfDigits high), rest.drop high.length, true)
    | rest => (some least, rest, !low.isEmpty)
  let rest? := match style.isExtended, rest with
    | true, '}' :: rest => some rest
    | false, '\\' :: '}' :: rest => some rest
    | _, _ => none
  if isWritten && most.all (least ≤ ·) then rest?.map fun rest => (least, most, rest) else none

/-- Marks that repeat what stands before them, at most so many. -/
def repetitions (style : Style) : Nat → Regex → Reader Regex
  | 0, r => pure r
  | more + 1, r => do
    let before ← get
    let (mark, rest) := sign style before.text
    let repeats (least : Nat) (most : Option Nat) (rest : Octets) : Reader Regex := do
      set { before with text := rest }
      repetitions style more (.repeated r least most)
    match mark with
    | .star => repeats 0 none rest
    | .plus => repeats 1 none rest
    | .optional => repeats 0 (some 1) rest
    | .brace =>
      match bounds? style rest with
      | some (least, most, rest) => repeats least most rest
      | none => if style.isExtended then pure r else throw "Invalid content of \\\x7b\\\x7d"
    | _ => pure r

/-- What a character stands for behind a backslash, if it is more than itself. -/
def escaped? (style : Style) (c : Char) : Option Regex :=
  match c with
  | 'w' => some (.oneOf false wordRanges)
  | 'W' => some (.oneOf true wordRanges)
  | 's' => some (.oneOf false spaceRanges)
  | 'S' => some (.oneOf true spaceRanges)
  | 'b' => some (.wordEdge true true)
  | 'B' => some .notEdge
  | '<' => some (.wordEdge true false)
  | '>' => some (.wordEdge false true)
  | '\x60' => some .lineStart
  | '\'' => some .lineEnd
  | 'n' => if style.hasEscapes then some (.char style '\n') else none
  | 't' => if style.hasEscapes then some (.char style '\t') else none
  | c => if '1' ≤ c && c ≤ '9' then some (.same (c.toNat - '0'.toNat)) else none

/-- What a character stands for without a backslash. -/
def plain (style : Style) (isFirst : Bool) (c : Char) (rest : Octets) : Reader Regex :=
  let next := (sign style rest).1
  let isLast := next matches .finish | .closing | .choice
  match c with
  | '.' => pure .any
  | '[' => bracketed style
  | '^' => pure (if isFirst || style.isExtended then .lineStart else .char style c)
  | '$' => pure (if isLast || style.isExtended then .lineEnd else .char style c)
  | c => pure (.char style c)

mutual

/-- Alternatives, up to the end or up to a closing parenthesis. -/
def alternatives (style : Style) : Nat → Bool → Reader Regex
  | 0, _ => throw "Regular expression too big"
  | more + 1, isInner => do
    let first ← branch style more isInner true
    let r ← get
    match sign style r.text with
    | (.choice, rest) => do
      set { r with text := rest }
      let second ← alternatives style more isInner
      pure (.either first second)
    | _ => pure first

/-- What follows each other. A star that comes first stands for itself. -/
def branch (style : Style) : Nat → Bool → Bool → Reader Regex
  | 0, _, _ => throw "Regular expression too big"
  | more + 1, isInner, isFirst => do
    let r ← get
    let (mark, rest) := sign style r.text
    let continued (atom : Regex) (isStillFirst : Bool) : Reader Regex := do
      let atom ← if isStillFirst then pure atom else repetitions style (r.text.length + 1) atom
      let others ← branch style more isInner isStillFirst
      pure (.sequence atom others)
    match mark with
    | .finish | .choice => pure .empty
    | .closing =>
      if isInner then pure .empty
      else if style.isExtended then do
        set { r with text := rest }
        continued (.char style ')') false
      else throw "Unmatched ) or \\)"
    | .opening => do
      let number := r.groups + 1
      set (⟨rest, number⟩ : Rest)
      let body ← alternatives style more true
      let after ← get
      match sign style after.text with
      | (.closing, rest) => do
        set { after with text := rest }
        continued (.group number body) false
      | _ => throw "Unmatched ( or \\("
    | .char isEscaped c => do
      set { r with text := rest }
      let atom ← if isEscaped then pure ((escaped? style c).getD (.char style c))
        else plain style isFirst c rest
      continued atom (isFirst && !isEscaped && c == '^')
    | .star => do
      set { r with text := rest }
      if isFirst then continued (.char style '*') false
      else throw "Invalid preceding regular expression"
    | .plus | .optional => do
      set { r with text := rest }
      if isFirst then continued (.char style (if mark matches .plus then '+' else '?')) false
      else throw "Invalid preceding regular expression"
    | .brace => do
      set { r with text := rest }
      if style.isExtended then continued (.char style '\x7b') false
      else throw "Invalid preceding regular expression"

end

def greatestReference : Regex → Nat
  | sequence a b | either a b => max a.greatestReference b.greatestReference
  | repeated a _ _ | group _ a => a.greatestReference
  | same n => n
  | _ => 0

/-- The regular expression that a text writes, with the number of its groups, or a complaint. -/
def read (style : Style) (text : Octets) : Except String (Regex × Nat) := do
  let (r, rest) ← (alternatives style (4 * text.length + 4) false).run ⟨text, 0⟩
  if rest.groups < r.greatestReference then .error "Invalid back reference"
  else .ok (r, rest.groups)

end Regex

end Turnery.Shell
