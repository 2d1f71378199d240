import Turnery.Shell.Octets

/-!
# Patterns

A pattern describes texts: a star stands for any text, a question mark for any character, and
brackets for one of some characters. A quoted character stands for itself.
-/

namespace Turnery.Shell

/-- A character of an expanded word; a literal one has no meaning in patterns. -/
structure Glyph where
  char : Char
  literal : Bool
  deriving DecidableEq, Repr

namespace Pattern

inductive Part where
  | anyText
  | anyChar
  | char (c : Char)
  /-- One of some ranges of characters, or none of them. -/
  | set (excluded : Bool) (ranges : List (Char × Char))
  deriving DecidableEq, Repr

def Part.accepts (part : Part) (c : Char) : Bool :=
  match part with
  | anyText => false
  | anyChar => true
  | char d => d == c
  | set excluded ranges => (ranges.any fun (low, high) => low ≤ c && c ≤ high) != excluded

def closes (g : Glyph) : Bool :=
  g == ⟨']', false⟩

def classRanges (name : String) : List (Char × Char) :=
  match name with
  | "upper" => [('A', 'Z')]
  | "lower" => [('a', 'z')]
  | "digit" => [('0', '9')]
  | "alpha" => [('A', 'Z'), ('a', 'z')]
  | "alnum" => [('0', '9'), ('A', 'Z'), ('a', 'z')]
  | "xdigit" => [('0', '9'), ('A', 'F'), ('a', 'f')]
  | "space" => [('\t', '\r'), (' ', ' ')]
  | "blank" => [('\t', '\t'), (' ', ' ')]
  | "punct" => [('!', '/'), (':', '@'), ('[', '\x60'), ('\x7b', '~')]
  | "cntrl" => [('\x00', '\x1f'), ('\x7f', '\x7f')]
  | "print" => [(' ', '~')]
  | "graph" => [('!', '~')]
  | _ => []

/-- The ranges of the class whose name stands in front of a colon and a bracket. -/
def classOf (text : List Glyph) : List (Char × Char) :=
  classRanges (String.ofList ((text.map Glyph.char).takeWhile (· != ':')))

/-- How many glyphs the name of a class takes up, with its end. -/
def classLength (text : List Glyph) : Nat :=
  ((text.map Glyph.char).takeWhile (· != ':')).length + 2

/-- The ranges up to the closing bracket, and the rest; at most so many are read. A bracket that
comes first is a member. -/
def ranges? : Nat → Bool → List Glyph → Option (List (Char × Char) × List Glyph)
  | 0, _, _ => none
  | _ + 1, _, [] => none
  | more + 1, first, g :: rest =>
    if closes g && !first then some ([], rest)
    else
      match g.char, rest with
      | '[', ⟨':', false⟩ :: name =>
        (ranges? more false (name.drop (classLength name))).map fun (rs, rest) =>
          (classOf name ++ rs, rest)
      | _, ⟨'-', false⟩ :: high :: rest' =>
        if closes high then some ([(g.char, g.char), ('-', '-')], rest')
        else (ranges? more false rest').map fun (rs, rest) => ((g.char, high.char) :: rs, rest)
      | _, _ => (ranges? more false rest).map fun (rs, rest) => ((g.char, g.char) :: rs, rest)

/-- The set behind an opening bracket, and the rest. -/
def set? (text : List Glyph) : Option (Part × List Glyph) :=
  match text with
  | ⟨'!', false⟩ :: rest =>
    (ranges? text.length true rest).map fun (rs, rest) => (.set true rs, rest)
  | _ => (ranges? text.length true text).map fun (rs, rest) => (.set false rs, rest)

/-- The parts of a pattern, of which there are at most so many. An opening bracket that is never
closed stands for itself. -/
def partsUpTo : Nat → List Glyph → List Part
  | 0, _ => []
  | _ + 1, [] => []
  | more + 1, ⟨c, literal⟩ :: rest =>
    if literal then .char c :: partsUpTo more rest
    else
      match c with
      | '*' => .anyText :: partsUpTo more rest
      | '?' => .anyChar :: partsUpTo more rest
      | '[' =>
        match set? rest with
        | some (part, rest) => part :: partsUpTo more rest
        | none => .char c :: partsUpTo more rest
      | _ => .char c :: partsUpTo more rest

def parts (pattern : List Glyph) : List Part :=
  partsUpTo pattern.length pattern

def describes : List Part → Octets → Bool
  | [], text => text.isEmpty
  | .anyText :: rest, [] => describes rest []
  | .anyText :: rest, c :: text => describes rest (c :: text) || describes (.anyText :: rest) text
  | _ :: _, [] => false
  | part :: rest, c :: text => part.accepts c && describes rest text
termination_by parts text => parts.length + text.length

/-- The pattern describes more than one text. -/
def isProper (pattern : List Glyph) : Bool :=
  (parts pattern).any fun
    | .char _ => false
    | _ => true

def trim (atEnd longest : Bool) (pattern : List Glyph) (text : Octets) : Octets :=
  let ps := parts pattern
  let lengths := List.range (text.length + 1)
  let lengths := if longest then lengths.reverse else lengths
  let kept (n : Nat) := if atEnd then text.take (text.length - n) else text.drop n
  let cut (n : Nat) := if atEnd then text.drop (text.length - n) else text.take n
  match lengths.find? fun n => describes ps (cut n) with
  | some n => kept n
  | none => text

end Pattern

end Turnery.Shell
