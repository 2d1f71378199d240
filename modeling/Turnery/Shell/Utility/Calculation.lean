import Turnery.Shell.Arithmetic
import Turnery.Shell.Regex
import Turnery.Shell.Utility.Choice

/-!
# Calculating with words

An expression is given by the arguments, an operator or a value in each. A value is a text; one that
looks like an integer can be calculated with.
-/

namespace Turnery.Shell.Utility

namespace Calculation

structure Rest where
  words : List Octets
  used : Octets

abbrev Reader := StateT Rest (Except String)

def integer? (value : Octets) : Option Int :=
  match value with
  | '-' :: ds =>
    if !ds.isEmpty && ds.all Char.isDigit then some (-(Number.natOfDigits ds : Int)) else none
  | ds => if !ds.isEmpty && ds.all Char.isDigit then some (Number.natOfDigits ds) else none

def isNull (value : Octets) : Bool :=
  value.isEmpty || integer? value == some 0

def ofBool (b : Bool) : Octets :=
  if b then ['1'] else ['0']

/-- The order of two values: that of integers if both look like some. -/
def orderOf (a b : Octets) : Ordering :=
  match integer? a, integer? b with
  | some m, some n => compare m n
  | _, _ => Octets.order a b

/-- What an expression describes at the front of a value: the group, or how many characters. -/
def described (value pattern : Octets) : Except String Octets := do
  let (r, groups) ← Regex.read ⟨false, false, false⟩ pattern
  let found := Regex.longest (r.ends ⟨none, value, []⟩)
  let start : Regex.Spot := ⟨none, value, []⟩
  if groups == 0 then .ok (Number.digits ((found.map start.passed).getD []).length)
  else .ok ((found.map fun s => s.group 1).getD [])

/-- The operators, from those that bind least. -/
def levels : List (List String) :=
  [["|"], ["&"], ["<", "<=", "=", "==", "!=", ">=", ">"], ["+", "-"], ["*", "/", "%"], [":"]]

/-- The value of an operator between two values. -/
def combine (operator : String) (a b : Octets) : Except String Octets := do
  let calculated (f : Int → Int → Except String Int) : Except String Octets :=
    match integer? a, integer? b with
    | some m, some n => (f m n).map Arithmetic.text
    | _, _ => .error "non-integer argument"
  let divided (f : Int → Int → Int) : Except String Octets :=
    calculated fun m n => if n == 0 then .error "division by zero" else .ok (f m n)
  match operator with
  | "|" => .ok (if !isNull a then a else if !isNull b then b else ['0'])
  | "&" => .ok (if isNull a || isNull b then ['0'] else a)
  | "<" => .ok (ofBool (orderOf a b == .lt))
  | "<=" => .ok (ofBool (orderOf a b != .gt))
  | "=" | "==" => .ok (ofBool (orderOf a b == .eq))
  | "!=" => .ok (ofBool (orderOf a b != .eq))
  | ">=" => .ok (ofBool (orderOf a b != .lt))
  | ">" => .ok (ofBool (orderOf a b == .gt))
  | "+" => calculated fun m n => .ok (m + n)
  | "-" => calculated fun m n => .ok (m - n)
  | "*" => calculated fun m n => .ok (m * n)
  | "/" => divided Int.tdiv
  | "%" => divided Int.tmod
  | _ => described a b

def part (text place length : Octets) : Octets :=
  match integer? place, integer? length with
  | some p, some n => if p < 1 || n < 1 then [] else (text.drop (p.toNat - 1)).take n.toNat
  | _, _ => []

def placeOf (text set : Octets) : Nat :=
  match text.findIdx? set.contains with
  | some n => n + 1
  | none => 0

def take : Reader Octets := do
  let r ← get
  match r.words with
  | [] => throw ("syntax error: missing argument after " ++ quoted r.used)
  | word :: rest => do
    set (⟨rest, word⟩ : Rest)
    pure word

mutual

/-- A value with operators of some levels behind it; nothing is calculated where nothing is
needed. -/
def chain : Nat → Bool → List (List String) → Reader Octets
  | 0, _, _ => throw "syntax error"
  | more + 1, isNeeded, [] => single more isNeeded
  | more + 1, isNeeded, level :: tighter => do
    let first ← chain more isNeeded tighter
    links more isNeeded level tighter first

def links : Nat → Bool → List String → List (List String) → Octets → Reader Octets
  | 0, _, _, _, _ => throw "syntax error"
  | more + 1, isNeeded, level, tighter, first => do
    match (← get).words with
    | word :: rest =>
      let operator := Octets.toText word
      if level.contains operator then
        set (⟨rest, word⟩ : Rest)
        let isNeededToo :=
          isNeeded && !(operator == "|" && !isNull first) && !(operator == "&" && isNull first)
        let second ← chain more isNeededToo tighter
        let value ← if isNeeded then (combine operator first second : Except String Octets)
            else pure first
        links more isNeeded level tighter value
      else pure first
    | [] => pure first

/-- A value, or an expression in parentheses, or a function of some values. -/
def single : Nat → Bool → Reader Octets
  | 0, _ => throw "syntax error"
  | more + 1, isNeeded => do
    let word ← take
    match Octets.toText word with
    | "+" => take
    | "length" => do
      let value ← single more isNeeded
      pure (Number.digits value.length)
    | "match" => do
      let value ← single more isNeeded
      let pattern ← single more isNeeded
      (described value pattern : Except String Octets)
    | "index" => do
      let value ← single more isNeeded
      let set ← single more isNeeded
      pure (Number.digits (placeOf value set))
    | "substr" => do
      let value ← single more isNeeded
      let place ← single more isNeeded
      let length ← single more isNeeded
      pure (part value place length)
    | "(" => do
      let value ← chain more isNeeded levels
      let r ← get
      match r.words with
      | [')'] :: rest => do
        set (⟨rest, [')']⟩ : Rest)
        pure value
      | [] => throw ("syntax error: expecting ')' after " ++ quoted r.used)
      | word :: _ => throw ("syntax error: expecting ')' instead of " ++ quoted word)
    | ")" => throw "syntax error: unexpected ')'"
    | _ => pure word

end

def evaluate (words : List Octets) : Except String Octets := do
  let (value, rest) ← (chain (16 * (words.length + 1)) true levels).run ⟨words, []⟩
  match rest.words with
  | [] => .ok value
  | word :: _ => .error ("syntax error: unexpected argument " ++ quoted word)

end Calculation

def calculate : Utility := fun name arguments => do
  match if arguments.head? == some ['-', '-'] then arguments.drop 1 else arguments with
  | [] => do
    lack name
    Act.setStatus 2
  | words =>
    match Calculation.evaluate words with
    | .ok value => do
      Act.send 1 (value ++ ['\n'])
      Act.setStatus (if Calculation.isNull value then 1 else 0)
    | .error message => do
      complain name message
      Act.setStatus 2

end Turnery.Shell.Utility
