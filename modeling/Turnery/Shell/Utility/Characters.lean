import Turnery.Shell.Format
import Turnery.Shell.Pattern
import Turnery.Shell.Utility.Choice

/-!
# Replacing characters

Characters of one set are replaced by those at the same places of another, or removed, or kept from
following themselves. A set is written with ranges, classes, escapes and repetitions.
-/

namespace Turnery.Shell.Utility

namespace CharacterSet

inductive Piece where
  | char (c : Char)
  | members (cs : List Char)
  /-- A character as often as is said, or as often as needed. -/
  | repeated (c : Char) (count : Option Nat)

def charRange (low high : Char) : List Char :=
  (List.range (high.toNat + 1 - low.toNat)).map fun i => Char.ofNat (low.toNat + i)

/-- The character at the front, which may be written as an escape, and the rest. -/
def character (c : Char) (rest : Octets) : Char × Octets :=
  if c != '\\' then (c, rest)
  else
    match rest with
    | [] => ('\\', [])
    | d :: rest =>
      match Format.letter? d with
      | some e => if d == 'e' then (d, rest) else (e, rest)
      | none => if (Number.digitIn? 8 d).isSome then Format.octal 3 0 (d :: rest) else (d, rest)

/-- How often a character is repeated: in octal digits if they begin with a zero. -/
def repetition? (digits : Octets) : Option (Option Nat) :=
  if digits.isEmpty then some none
  else
    let base := if digits.head? == some '0' then 8 else 10
    (Number.natIn? base digits).map fun n => if n == 0 then none else some n

def bracketed? (text : Octets) : Except String (Option (Piece × Octets)) :=
  match text with
  | ':' :: rest =>
    let name := rest.takeWhile (· != ':')
    match rest.drop name.length with
    | ':' :: ']' :: rest =>
      let cs := (Pattern.classRanges (Octets.toText name)).flatMap fun (low, high) =>
        charRange low high
      if cs.isEmpty then .error ("invalid character class '" ++ Octets.toText name ++ "'")
      else .ok (some (.members cs, rest))
    | _ => .ok none
  | '=' :: c :: '=' :: ']' :: rest => .ok (some (.char c, rest))
  | c :: '*' :: rest =>
    let digits := rest.takeWhile Char.isDigit
    match rest.drop digits.length, repetition? digits with
    | ']' :: rest, some count => .ok (some (.repeated c count, rest))
    | _, _ => .ok none
  | _ => .ok none

/-- The pieces of a written set, of which there are at most so many. -/
def pieces : Nat → Octets → Except String (List Piece)
  | 0, _ | _, [] => .ok []
  | more + 1, c :: rest => do
    match ← if c == '[' then bracketed? rest else .ok none with
    | some (piece, rest) => (pieces more rest).map (piece :: ·)
    | none =>
      let (low, rest) := character c rest
      match rest with
      | '-' :: d :: rest' =>
        let (high, rest') := character d rest'
        if high < low then
          let range := String.ofList [low, '-', high]
          .error ("range-endpoints of '" ++ range ++ "' are in reverse collating sequence order")
        else (pieces more rest').map (.members (charRange low high) :: ·)
      | rest => (pieces more rest).map (.char low :: ·)

/-- The characters of a piece; one that is repeated as often as needed fills a set up to a size. -/
def Piece.characters (filling : Nat) : Piece → List Char
  | char c => [c]
  | members cs => cs
  | repeated c count => List.replicate (count.getD filling) c

/-- The characters of pieces, as many as a set has that they are to stand beside. -/
def characters (size : Nat) (ps : List Piece) : List Char :=
  let fixed := (ps.flatMap (Piece.characters 0)).length
  ps.flatMap (Piece.characters (size - fixed))

def others (cs : List Char) : List Char :=
  ((List.range 256).map Char.ofNat).filter fun c => !cs.contains c

end CharacterSet

/-- The character that a character becomes. The last one of a shorter second set is repeated. -/
def exchanged (source target : List Char) (c : Char) : Char :=
  match source.findIdx? (· == c) with
  | none => c
  | some i => (target[i]?.or target.getLast?).getD c

/-- The characters of the first set at the place where each stands last. -/
def lastPlaces (source target : List Char) : List Char × List Char :=
  let padding := List.replicate (source.length - target.length) (target.getLast?.getD '\x00')
  let pairs := (source.zip (target ++ padding)).reverse
  (pairs.map Prod.fst, pairs.map Prod.snd)

def squeezed (set : List Char) : Octets → Octets
  | a :: b :: rest =>
    if a == b && set.contains a then squeezed set (b :: rest) else a :: squeezed set (b :: rest)
  | text => text

structure Exchange where
  complements : Bool
  deletes : Bool
  squeezes : Bool
  truncates : Bool

namespace Exchange

def vocabulary : Vocabulary where
  flags := "cCdst"
  valued := ""
  words := [("complement", 'c'), ("delete", 'd'), ("squeeze-repeats", 's'), ("truncate-set1", 't')]
  isOrdered := true

def ofChoices (c : Choices) : Exchange :=
  ⟨c.has 'c' || c.has 'C', c.has 'd', c.has 's', c.has 't'⟩

/-- What keeps the operands from being used, if anything does. -/
def fault? (t : Exchange) (operands : List Octets) : Option String :=
  let extra (operand : Octets) (more : String) := some ("extra operand " ++ quoted operand ++ more)
  match operands with
  | [] => some "missing operand"
  | [first] =>
    if t.deletes && t.squeezes then
      some ("missing operand after " ++ quoted first ++
        "\nTwo strings must be given when both deleting and squeezing repeats.")
    else if t.deletes || t.squeezes then none
    else some ("missing operand after " ++ quoted first ++
      "\nTwo strings must be given when translating.")
  | [_, second] =>
    if t.deletes && !t.squeezes then
      extra second "\nOnly one string may be given when deleting without squeezing repeats."
    else none
  | _ :: _ :: third :: _ => extra third ""

def apply (t : Exchange) (sets : List Octets) (text : Octets) : Except String Octets := do
  let read (set : Octets) := CharacterSet.pieces (set.length + 1) set
  let first := CharacterSet.characters 0 (← read (sets.headD []))
  let source := if t.complements then CharacterSet.others first else first
  match sets.drop 1 with
  | [] =>
    if t.deletes then .ok (text.filter fun c => !source.contains c) else .ok (squeezed source text)
  | set :: _ =>
    let target := CharacterSet.characters source.length (← read set)
    if t.deletes then .ok (squeezed target (text.filter fun c => !source.contains c))
    else if target.isEmpty && !t.truncates then
      .error "when not truncating set1, string2 must be non-empty"
    else
      let source := if t.truncates then source.take target.length else source
      let (source, target') := lastPlaces source target
      let changed := text.map (exchanged source target')
      .ok (if t.squeezes then squeezed target changed else changed)

end Exchange

/-- Replaces, removes or squeezes characters. -/
def exchange : Utility :=
  choosing Exchange.vocabulary 1 fun name c => do
    let t := Exchange.ofChoices c
    match t.fault? c.operands with
    | some message => refuse name message
    | none =>
      match ← load ['-'] with
      | .error reason => complain name ("read error: " ++ reason)
      | .ok text =>
        match t.apply c.operands text with
        | .ok text => Act.send 1 text
        | .error message => complain name message

end Turnery.Shell.Utility
