import Turnery.Shell.Numeral
import Turnery.Shell.Utility.Choice

/-!
# Showing texts

Texts are shown as they are, or with numbers and with signs for what cannot be seen; or backwards by
lines or by characters.
-/

namespace Turnery.Shell.Utility

def column (width : Nat) (n : Nat) : Octets :=
  let ds := Number.digits n
  List.replicate (width - ds.length) ' ' ++ ds

structure Display where
  numbersAll : Bool
  numbersFull : Bool
  squeezes : Bool
  showsEnds : Bool
  showsTabs : Bool
  showsHidden : Bool

namespace Display

/-- The options that tell how texts are displayed. -/
def vocabulary : Vocabulary where
  flags := "AbeEnstTuv"
  valued := ""
  words :=
    [("show-all", 'A'), ("number-nonblank", 'b'), ("show-ends", 'E'), ("number", 'n'),
      ("squeeze-blank", 's'),
    ("show-tabs", 'T'), ("show-nonprinting", 'v')]
  isOrdered := false

def ofChoices (c : Choices) : Display where
  numbersAll := c.has 'n' && !c.has 'b'
  numbersFull := c.has 'b'
  squeezes := c.has 's'
  showsEnds := c.has 'A' || c.has 'e' || c.has 'E'
  showsTabs := c.has 'A' || c.has 't' || c.has 'T'
  showsHidden := c.has 'A' || c.has 'e' || c.has 't' || c.has 'v'

def isPlain (d : Display) : Bool :=
  !(d.numbersAll || d.numbersFull || d.squeezes || d.showsEnds || d.showsTabs || d.showsHidden)

/-- A control character as a caret and a letter. -/
def caret (n : Nat) : Octets :=
  if n < 32 then ['^', Char.ofNat (n + 64)] else if n == 127 then ['^', '?'] else [Char.ofNat n]

/-- A character with signs for what cannot be seen. -/
def character (d : Display) (c : Char) : Octets :=
  if c == '\t' then (if d.showsTabs then ['^', 'I'] else ['\t'])
  else if c == '\n' then (if d.showsEnds then ['$', '\n'] else ['\n'])
  else if !d.showsHidden then [c]
  else if c.toNat < 128 then caret c.toNat
  else 'M' :: '-' :: caret (c.toNat - 128)

/-- Lines, given the number of the next one and whether the one before was blank. -/
def lines (d : Display) : Nat → Bool → List Octets → Octets
  | _, _, [] => []
  | number, afterBlank, line :: rest =>
    let isBlank := line == ['\n']
    if d.squeezes && isBlank && afterBlank then lines d number true rest
    else
      let isNumbered := d.numbersAll || (d.numbersFull && !isBlank)
      (if isNumbered then column 6 number ++ ['\t'] else []) ++ line.flatMap (character d) ++
        lines d (if isNumbered then number + 1 else number) isBlank rest

end Display

def catenate : Utility :=
  choosing Display.vocabulary 1 fun name c => do
    let d := Display.ofChoices c
    if d.isPlain then
      (orInput c.operands).forM fun path => do
        match ← load path with
        | .ok text => Act.send 1 text
        | .error reason => complain name (shown path ++ ": " ++ reason)
      if (orInput c.operands).any isInput && ((← get).target? 0).isNone then
        complain name "closing standard input: Bad file descriptor"
    else
      let texts ← loadAll name (orInput c.operands)
      Act.send 1 (d.lines 1 false (lines (texts.flatMap Prod.snd)))

/-- Shows the lines of texts backwards. -/
def reverseLines : Utility :=
  choosing ⟨"b", "s", [("before", 'b'), ("separator", 's')], false⟩ 1 fun name c => do
    (orInput c.operands).forM fun path => do
      match ← load path with
      | .ok text => Act.send 1 (lines text).reverse.flatten
      | .error reason =>
        complain name ("failed to open " ++ quoted path ++ " for reading: " ++ reason)

/-- Shows the characters of each line backwards. -/
def reverseCharacters : Utility :=
  plain fun name operands => do
    (orInput operands).forM fun path => do
      match ← load path with
      | .ok text =>
        let backwards (line : Octets) :=
          if line.getLast? == some '\n' then line.dropLast.reverse ++ ['\n'] else line.reverse
        Act.send 1 ((lines text).flatMap backwards)
      | .error reason => complain name ("cannot open " ++ Octets.toText path ++ ": " ++ reason)

structure Numbering where
  /-- Which lines: all of them, those that are not blank, or none. -/
  style : Char
  width : Nat
  separator : Octets
  first : Int
  step : Int
  /-- Where in its column a number stands, with zeros in front or not. -/
  layout : String

namespace Numbering

/-- The options that tell how lines are numbered. -/
def vocabulary : Vocabulary where
  flags := "p"
  valued := "bdfhilnsvw"
  words :=
    [("body-numbering", 'b'), ("line-increment", 'i'), ("number-format", 'n'),
      ("number-separator", 's'),
    ("starting-line-number", 'v'), ("number-width", 'w')]
  isOrdered := false

def ofChoices (c : Choices) : Numbering where
  style := ((c.value? 'b').getD ['t']).headD 't'
  width := Number.natOfDigits ((c.value? 'w').getD ['6'])
  separator := (c.value? 's').getD ['\t']
  first := ((c.value? 'v').bind Numeral.integer?).getD 1
  step := ((c.value? 'i').bind Numeral.integer?).getD 1
  layout := Octets.toText ((c.value? 'n').getD ['r', 'n'])

def number (n : Numbering) (value : Int) : Octets :=
  let ds := Number.digits value.natAbs
  let sign := if value < 0 then ['-'] else []
  let missing := n.width - sign.length - ds.length
  match n.layout with
  | "ln" => sign ++ ds ++ List.replicate missing ' '
  | "rz" => sign ++ List.replicate missing '0' ++ ds
  | _ => List.replicate missing ' ' ++ sign ++ ds

def lines (n : Numbering) : Int → List Octets → Octets
  | _, [] => []
  | value, line :: rest =>
    if n.style == 'a' || (n.style == 't' && !line.isEmpty) then
      n.number value ++ n.separator ++ line ++ '\n' :: lines n (value + n.step) rest
    else List.replicate (n.width + n.separator.length) ' ' ++ line ++ '\n' :: lines n value rest

end Numbering

/-- Shows texts with numbers in front of the lines. -/
def numberLines : Utility :=
  choosing Numbering.vocabulary 1 fun name c => do
    let n := Numbering.ofChoices c
    let texts ← loadAll name (orInput c.operands)
    Act.send 1 (n.lines n.first (texts.flatMap fun entry => bareLines entry.2))

end Turnery.Shell.Utility
