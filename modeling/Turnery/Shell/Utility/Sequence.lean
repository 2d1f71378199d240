import Turnery.Shell.Format
import Turnery.Shell.Utility.Choice

/-!
# Making texts

Sequences of numbers, lines over and over, and the words of a call.
-/

namespace Turnery.Shell.Utility

namespace Sequence

def vocabulary : Vocabulary where
  flags := "w"
  valued := "fs"
  words := [("equal-width", 'w'), ("format", 'f'), ("separator", 's')]
  isOrdered := true

/-- Arguments in which two hyphens stand before a number with a minus sign, so that it is none of
the options. -/
def guarded : List Octets → List Octets
  | [] => []
  | argument :: rest =>
    match argument, rest with
    | ['-', 's'], value :: rest => argument :: value :: guarded rest
    | ['-', 'f'], value :: rest => argument :: value :: guarded rest
    | '-' :: c :: _, rest =>
      if c.isDigit || c == '.' then ['-', '-'] :: argument :: rest else argument :: guarded rest
    | _, rest => argument :: rest

/-- A number with a count of decimals: the number counts units of the last one. -/
structure Step where
  units : Int
  places : Nat

def step? (text : Octets) : Option Step :=
  let (negative, body) := Number.splitSign text
  (Number.unsigned? body).map fun (mantissa, exponent) =>
    let n : Int := mantissa * Nat.pow 10 exponent.toNat
    ⟨if negative then -n else n, (-exponent).toNat⟩

/-- The units of a number if there are so many decimals. -/
def Step.scaled (s : Step) (places : Nat) : Int :=
  s.units * Nat.pow 10 (places - s.places)

/-- The numbers from one to another, at most so many. -/
def numbers : Nat → Int → Int → Int → List Int
  | 0, _, _, _ => []
  | more + 1, n, step, last =>
    if (0 < step && last < n) || (step < 0 && n < last) then []
    else n :: numbers more (n + step) step last

/-- A count of units of the last decimal as a text. -/
def text (places : Nat) (units : Int) : Octets :=
  let n := units.natAbs
  let whole := Number.digits (n / Nat.pow 10 places)
  (if units < 0 then ['-'] else []) ++ whole ++
    (if places == 0 then [] else '.' :: Number.lastDigits places n)

/-- A text with zeros behind its sign. -/
def widened (width : Nat) (text : Octets) : Octets :=
  let zeros := List.replicate (width - text.length) '0'
  match text with
  | '-' :: ds => '-' :: zeros ++ ds
  | ds => zeros ++ ds

structure Style where
  format : Option Octets
  separator : Octets
  isEven : Bool

def shown (style : Style) (first step last : Step) : Octets :=
  let places := max first.places step.places
  let all := max places last.places
  let unit := Nat.pow 10 (all - places)
  let from' := first.scaled all
  let by' := step.scaled all
  let to' := last.scaled all
  let count := (to' - from').natAbs / by'.natAbs + 1
  let texts := (numbers count from' by' to').map fun n => text places (n / unit)
  let texts := match style.format with
    | some format => texts.map fun t => (Format.print format [t]).text
    | none =>
      if style.isEven then
        let width := texts.foldl (fun n t => max n t.length) 0
        texts.map (widened width)
      else texts
  if texts.isEmpty then [] else style.separator.intercalate texts ++ ['\n']

end Sequence

def sequence : Utility := fun name arguments =>
  let use (name : Octets) (c : Choices) : Act Unit := do
    let style : Sequence.Style := ⟨c.value? 'f', (c.value? 's').getD ['\n'], c.has 'w'⟩
    match if 3 < c.operands.length then none else c.operands.find? fun a =>
      (Sequence.step? a).isNone with
    | some a => refuse name ("invalid floating point argument: " ++ quoted a)
    | none =>
      let one : Sequence.Step := ⟨1, 0⟩
      match if 3 < c.operands.length then [one, one, one, one]
        else c.operands.filterMap Sequence.step?, c.operands with
      | [], _ => lack name
      | [last], _ => Act.send 1 (Sequence.shown style one one last)
      | [first, last], _ => Act.send 1 (Sequence.shown style first one last)
      | [first, step, last], _ =>
        if step.units == 0 then
          refuse name ("invalid Zero increment value: " ++ quoted (c.operands[1]?.getD []))
        else Act.send 1 (Sequence.shown style first step last)
      | _, operands => refuse name ("extra operand " ++ quoted (operands[3]?.getD []))
  choosing Sequence.vocabulary 1 use name (Sequence.guarded arguments)

/-- Shows a line over and over. -/
def repeatLine : Utility :=
  choosing ⟨"", "", [], false⟩ 1 fun _ c => do
    let line := (if c.operands.isEmpty then ['y'] else [' '].intercalate c.operands) ++ ['\n']
    Act.send 1 (List.replicate (Opening.endlessSize / line.length) line).flatten

/-- The options that stand in front of the words to be shown. -/
def echoOptions : List Octets → List Char × List Octets
  | ('-' :: c :: letters) :: rest =>
    if (c :: letters).all fun l => ['n', 'e', 'E'].contains l then
      let (others, words) := echoOptions rest
      (c :: letters ++ others, words)
    else ([], ('-' :: c :: letters) :: rest)
  | words => ([], words)

/-- Shows the words of the arguments on a line. -/
def echo : Utility := fun _ arguments => do
  let (letters, words) := echoOptions arguments
  let escapes := (letters.filter (· != 'n')).getLast? == some 'e'
  let isLine := !letters.contains 'n'
  Act.send 1
    (if escapes then Format.line isLine words
      else [' '].intercalate words ++ (if isLine then ['\n'] else []))

/-- Shows arguments as a format says. -/
def print : Utility := fun name arguments => do
  match if arguments.head? == some ['-', '-'] then arguments.drop 1 else arguments with
  | [] => lack name
  | format :: rest =>
    let p := Format.print format rest
    Act.send 1 p.text
    p.complaints.forM fun message => complain name message
    if !rest.isEmpty && !p.used then
      complain name ("warning: ignoring excess arguments, starting with " ++ quoted (rest.headD []))
      Act.setStatus p.status

end Turnery.Shell.Utility
