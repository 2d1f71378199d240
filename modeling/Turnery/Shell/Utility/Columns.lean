import Turnery.Shell.Utility.Choice

/-!
# Columns

Parts of lines are cut out: characters or fields, by their numbers. Lines are also put side by side.
-/

namespace Turnery.Shell.Utility

namespace Columns

/-- From which number to which, the last included; up to the end if there is none. -/
structure Range where
  low : Nat
  high : Option Nat

def Range.holds (r : Range) (n : Nat) : Bool :=
  r.low ≤ n && r.high.all (n ≤ ·)

/-- The parts that are wanted, counted as fields or as characters. -/
structure Wanted where
  isFields : Bool
  ranges : List Range
  excludes : Bool

def Wanted.holds (w : Wanted) (n : Nat) : Bool :=
  (w.ranges.any fun r => r.holds n) != w.excludes

def range (noun : String) (text : Octets) : Except String Range :=
  let low := text.takeWhile Char.isDigit
  let invalid := .error ("invalid " ++ noun ++ " '" ++ Octets.toText text ++ "'")
  let numbered (what : String) := .error (what ++ " are numbered from 1")
  let plural := if noun == "field value" then "fields" else "byte/character positions"
  match text.drop low.length with
  | [] =>
    if low.isEmpty then numbered plural
    else if Number.natOfDigits low == 0 then numbered plural
    else .ok ⟨Number.natOfDigits low, some (Number.natOfDigits low)⟩
  | '-' :: high =>
    if !high.all Char.isDigit then invalid
    else if low.isEmpty && high.isEmpty then .error "invalid range with no endpoint: -"
    else
      let first := if low.isEmpty then 1 else Number.natOfDigits low
      let last := Number.natOfDigits high
      if first == 0 then numbered plural
      else if high.isEmpty then .ok ⟨first, none⟩
      else if last < first then .error "invalid decreasing range"
      else .ok ⟨first, some last⟩
  | _ => invalid

def vocabulary : Vocabulary where
  flags := "nsz\x03"
  valued := "bcdf\x04"
  words :=
    [("bytes", 'b'), ("characters", 'c'), ("delimiter", 'd'), ("fields", 'f'),
      ("only-delimited", 's'),
    ("complement", '\x03'), ("output-delimiter", '\x04')]
  isOrdered := false

def ofChoices (c : Choices) : Except String Wanted := do
  match c.options.filter fun option => "bcf".contains option.1 with
  | [] => .error "you must specify a list of bytes, characters, or fields"
  | [(letter, list)] =>
    if letter != 'f' && c.has 'd' then
      .error "an input delimiter may be specified only when operating on fields"
    else if letter != 'f' && c.has 's' then
      .error "suppressing non-delimited lines makes sense\n\tonly when operating on fields"
    else if (c.value? 'd').any fun d => 1 < d.length
      then .error "the delimiter must be a single character"
    else
      let noun := if letter == 'f' then "field value" else "byte/character offset"
      let pieces := (list.splitOn ',').flatMap fun piece => piece.splitOn ' '
      .ok ⟨letter == 'f', ← pieces.mapM (range noun), c.has '\x03'⟩
  | _ => .error "only one list may be specified"

def select {α : Type} (w : Wanted) (items : List α) : List α :=
  (items.zipIdx 1).filterMap fun (item, n) => if w.holds n then some item else none

/-- The wanted part of a line. A line without any delimiter is shown as it is, or not at all. -/
def cut (w : Wanted) (delimiter : Char) (joint : Octets) (onlyDivided : Bool) (line : Octets) :
    Option Octets :=
  if !w.isFields then some (select w line)
  else if !line.contains delimiter then (if onlyDivided then none else some line)
  else some (joint.intercalate (select w (line.splitOn delimiter)))

end Columns

def cut : Utility :=
  choosing Columns.vocabulary 1 fun name c => do
    match Columns.ofChoices c with
    | .error message => refuse name message
    | .ok wanted =>
      let delimiter := ((c.value? 'd').getD ['\t']).headD '\x00'
      let joint := (c.value? '\x04').getD [delimiter]
      let texts ← loadAll name (orInput c.operands)
      let parts := texts.flatMap fun entry =>
        (bareLines entry.2).filterMap (Columns.cut wanted delimiter joint (c.has 's'))
      Act.send 1 (unlines parts)

namespace Columns

/-- A character or nothing that stands between lines; the escapes are those for a newline, a
tabulator, a backslash and nothing. -/
def joints : Octets → List Octets
  | '\\' :: 'n' :: rest => ['\n'] :: joints rest
  | '\\' :: 't' :: rest => ['\t'] :: joints rest
  | '\\' :: '0' :: rest => [] :: joints rest
  | '\\' :: c :: rest => [c] :: joints rest
  | c :: rest => [c] :: joints rest
  | [] => []

/-- Items with joints between them, which are used in turn. -/
def joined (joints : List Octets) (items : List Octets) : Octets :=
  let count := joints.length
  (items.zipIdx 0).flatMap fun (item, n) =>
    (if n == 0 then [] else (joints[(n - 1) % count]?).getD []) ++ item

def rows : Nat → List (List Octets) → List (List Octets)
  | 0, _ => []
  | more + 1, columns =>
    columns.map (fun column => column.headD []) :: rows more (columns.map (List.drop 1))

/-- The columns that texts make. Those that lead to the input take its lines in turn. -/
def ofTexts (texts : List (Octets × Octets)) : List (List Octets) :=
  let inputs := (texts.filter fun entry => isInput entry.1).length
  let input := texts.flatMap fun entry => if isInput entry.1 then bareLines entry.2 else []
  let turn (place : Nat) := ((texts.take place).filter fun entry => isInput entry.1).length
  (texts.zipIdx 0).map fun ((path, text), place) =>
    if isInput path then
      (input.zipIdx 0).filterMap fun (line, n) =>
        if n % inputs == turn place then some line else none
    else bareLines text

end Columns

/-- Puts lines side by side: those of several texts, or those of each. -/
def paste : Utility :=
  choosing ⟨"sz", "d", [("serial", 's'), ("delimiters", 'd')], false⟩ 1 fun name c => do
    let joints := Columns.joints ((c.value? 'd').getD ['\t'])
    let joints := if joints.isEmpty then [[]] else joints
    let texts ← loadAll name (orInput c.operands)
    let columns :=
      if c.has 's' then texts.map fun entry => bareLines entry.2 else Columns.ofTexts texts
    let height := columns.foldl (fun n column => max n column.length) 0
    let rows := if c.has 's' then columns else Columns.rows height columns
    Act.send 1 (unlines (rows.map (Columns.joined joints)))

end Turnery.Shell.Utility
