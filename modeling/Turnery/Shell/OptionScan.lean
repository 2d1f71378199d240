import Turnery.Shell.State

/-!
# Options among arguments

A script reads its options one by one. An option is a letter; a specification says which letters
there are and which of them take a value, which stands behind the letter or in the next argument.
-/

namespace Turnery.Shell.OptionScan

/-- One step of reading: the letter to be shown, the value of the option if it is to have one, a
complaint, where to go on, and whether the options are over. -/
structure Step where
  shown : Char
  value : Option Octets
  complaint : Octets
  place : OptionPlace
  isOver : Bool

def takesValue? (letter : Char) : Octets → Option Bool
  | [] => none
  | c :: ':' :: rest => if c == letter then some true else takesValue? letter rest
  | c :: rest => if c == letter then some false else takesValue? letter rest

/-- The step that takes a letter, of which the rest of its argument follows. The arguments behind
that are given too. -/
def take (specification : Octets) (letter : Char) (rest : Octets) (behind : List Octets)
    (index offset : Nat) : Step :=
  let silent := specification.head? == some ':'
  let further : OptionPlace := ⟨index, some offset⟩
  match takesValue? letter specification with
  | none =>
    if silent then ⟨'?', some [letter], [], further, false⟩
    else ⟨'?', none, "Illegal option -".toList ++ [letter, '\n'], further, false⟩
  | some false => ⟨letter, some [], [], further, false⟩
  | some true =>
    match rest, behind with
    | _ :: _, _ => ⟨letter, some rest, [], ⟨index, none⟩, false⟩
    | [], value :: _ => ⟨letter, some value, [], ⟨index + 1, none⟩, false⟩
    | [], [] =>
      if silent then ⟨':', some [letter], [], ⟨index, none⟩, false⟩
      else ⟨'?', none, "No arg for -".toList ++ letter :: " option\n".toList, ⟨index, none⟩, false⟩

/-- What is left of the argument that is being read. -/
def remainder (arguments : List Octets) (place : OptionPlace) : Octets :=
  match place.offset with
  | some offset =>
    if place.index ≤ 1 then [] else ((arguments[place.index - 2]?).getD []).drop offset
  | none => []

def next (specification : Octets) (arguments : List Octets) (place : OptionPlace) : Step :=
  let place := if arguments.length + 1 < place.index then ⟨1, none⟩ else place
  let ended (index : Nat) : Step := ⟨'?', none, [], ⟨index, none⟩, true⟩
  match remainder arguments place, place.offset with
  | letter :: rest, some offset =>
    take specification letter rest (arguments.drop (place.index - 1)) place.index (offset + 1)
  | _, _ =>
    match arguments.drop (place.index - 1) with
    | ['-', '-'] :: _ => ended (place.index + 1)
    | ('-' :: letter :: rest) :: behind => take specification letter rest behind (place.index + 1) 2
    | _ => ended place.index

end Turnery.Shell.OptionScan
