import Turnery.Shell.Utility.Choice

/-!
# Parts of texts

The first or the last lines or bytes of texts. What is not read of an input that is a file is left
to others.
-/

namespace Turnery.Shell.Utility

namespace Extent

/-- The options that tell how much of a text is wanted. -/
def vocabulary : Vocabulary where
  flags := "qvzfF"
  valued := "cn"
  words :=
    [("bytes", 'c'), ("lines", 'n'), ("quiet", 'q'), ("silent", 'q'), ("verbose", 'v'),
      ("zero-terminated", 'z'),
    ("follow", 'f')]
  isOrdered := false

inductive Anchor where
  | start
  | finish
  /-- From the start, but what is counted is left out. -/
  | behind

/-- How much of a text is wanted. -/
structure Measure where
  isBytes : Bool
  anchor : Anchor
  count : Nat

/-- Which part is shown of texts: the first or the last, of all the pieces. -/
inductive Side where
  | first
  | last

/-- The sign of a number: `-` counts the other way at the start, `+` at the end. -/
def measure? (side : Side) (isBytes : Bool) (text : Octets) : Option Measure :=
  match side, text with
  | .first, '-' :: text => (size? text).map (⟨isBytes, .finish, ·⟩)
  | .first, '+' :: text => (size? text).map (⟨isBytes, .start, ·⟩)
  | .first, text => (size? text).map (⟨isBytes, .start, ·⟩)
  | .last, '+' :: text => (size? text).map fun n => ⟨isBytes, .behind, n - 1⟩
  | .last, '-' :: text => (size? text).map (⟨isBytes, .finish, ·⟩)
  | .last, text => (size? text).map (⟨isBytes, .finish, ·⟩)

def pieces (m : Measure) (text : Octets) : List Octets :=
  if m.isBytes then text.map fun b => [b] else lines text

/-- The wanted part of a text, and what is left behind it. -/
def part (side : Side) (m : Measure) (text : Octets) : Octets × Octets :=
  let ps := pieces m text
  match side, m.anchor with
  | .first, .finish =>
    ((ps.take (ps.length - m.count)).flatten, (ps.drop (ps.length - m.count)).flatten)
  | .first, _ => ((ps.take m.count).flatten, (ps.drop m.count).flatten)
  | .last, .behind => ((ps.drop m.count).flatten, [])
  | .last, _ => ((ps.drop (ps.length - m.count)).flatten, [])

/-- A number behind a hyphen, or behind a plus sign at the end, is a count of lines. -/
def modern (side : Side) (arguments : List Octets) : List Octets :=
  match side, arguments with
  | _, ('-' :: d :: digits) :: rest =>
    if (d :: digits).all Char.isDigit then ['-', 'n'] :: (d :: digits) :: rest else arguments
  | .last, ('+' :: d :: digits) :: rest =>
    if (d :: digits).all Char.isDigit then ['-', 'n'] :: ('+' :: d :: digits) :: rest else arguments
  | _, _ => arguments

def ofChoices (side : Side) (c : Choices) : Except String Measure :=
  let isBytes := c.last? "cn" == some 'c'
  let noun := if isBytes then "bytes" else "lines"
  match c.value? (if isBytes then 'c' else 'n') with
  | none => .ok ⟨false, (if side matches .first then .start else .finish), 10⟩
  | some text =>
    match measure? side isBytes text with
    | some m => .ok m
    | none => .error ("invalid number of " ++ noun ++ ": '" ++ Octets.toText text ++ "'")

/-- Shows the part of one text, behind a heading if there is one; the answer is whether the heading
was shown. -/
def showPart (side : Side) (m : Measure) (name : Octets) (heading : Option String) (path : Octets) :
    Act Bool := do
  let before := (← get).input
  let isDirectory := ((← get).workspace.find? (Octets.toText path)).toOption == some .directory
  match ← load path with
  | .ok text => do
    let text := match side, m.isBytes, Octets.toText path with
      | .first, true, "/dev/zero" => List.replicate m.count '\x00'
      | _, _, _ => text
    let (wanted, left) := part side m text
    if isInput path && before.isFile then modify fun s => s.leaveInput left
    Act.send 1 (Octets.ofText (heading.getD "") ++ wanted)
    pure true
  | .error reason =>
    if isDirectory then do
      Act.send 1 (Octets.ofText (heading.getD ""))
      complain name ("error reading " ++ quoted path ++ ": " ++ reason)
      pure true
    else do
      complain name ("cannot open " ++ quoted path ++ " for reading: " ++ reason)
      pure false

/-- Shows the parts of texts; a heading other than the first stands behind a blank line. -/
def showAll (side : Side) (m : Measure) (name : Octets) (isHeaded : Bool) :
    Bool → List Octets → Act Unit
  | _, [] => pure ()
  | isFirst, path :: rest => do
    let title := if isInput path then "standard input" else Octets.toText path
    let heading := (if isFirst then "" else "\n") ++ "==> " ++ title ++ " <==\n"
    let isShown ← showPart side m name (if isHeaded then some heading else none) path
    showAll side m name isHeaded (isFirst && !isShown) rest

end Extent

def extract (side : Extent.Side) : Utility := fun name arguments =>
  let use (name : Octets) (c : Choices) : Act Unit := do
    match Extent.ofChoices side c with
    | .error message => complain name message
    | .ok m =>
      let isHeaded := c.last? "qv" == some 'v' || ((c.last? "qv").isNone && 1 < c.operands.length)
      Extent.showAll side m name isHeaded true (orInput c.operands)
  choosing Extent.vocabulary 1 use name (Extent.modern side arguments)

def head : Utility := extract .first

def tail : Utility := extract .last

end Turnery.Shell.Utility
