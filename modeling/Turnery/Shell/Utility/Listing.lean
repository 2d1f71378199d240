import Turnery.Shell.Pattern
import Turnery.Shell.Utility.Naming

/-!
# Listing directories

The names of what directories hold, in order; and the paths beneath directories that fulfil
conditions.
-/

namespace Turnery.Shell.Utility

open Turnery.Files

namespace Listing

def vocabulary : Vocabulary where
  flags := "1aABbcCdfFgGhHiklLmnNopqQrRsStuUvxXZ"
  valued := "ITw"
  words :=
    [("all", 'a'), ("almost-all", 'A'), ("classify", 'F'), ("directory", 'd'), ("recursive", 'R'),
    ("reverse", 'r'), ("color", '\x03')]
  isOrdered := false

def marked (c : Choices) (w : Workspace) (place : Place) (name : String) : String :=
  match w.node? place with
  | some .directory => if c.has 'F' || c.has 'p' then name ++ "/" else name
  | some (.link _) => if c.has 'F' then name ++ "@" else name
  | _ => if c.has 'F' && w.runnable.contains place then name ++ "*" else name

/-- Names on lines, or behind each other with commas. -/
def text (c : Choices) (names : List String) : Octets :=
  let names := if c.has 'r' then names.reverse else names
  if c.has 'm' then (if names.isEmpty then [] else Octets.ofText (", ".intercalate names ++ "\n"))
  else names.flatMap fun name => Octets.ofText (name ++ "\n")

def names (c : Choices) (w : Workspace) (place : Place) : List String :=
  let isShown (name : String) := c.has 'a' || c.has 'f' || c.has 'A' || !name.startsWith "."
  (w.names place).filter isShown

def directory (c : Choices) (w : Workspace) (place : Place) : Octets :=
  let inner := (names c w place).map fun name => marked c w (place ++ [name]) name
  let outer :=
    if c.has 'a' || c.has 'f' then [marked c w place ".", marked c w place.dropLast ".."] else []
  text c (outer ++ inner)

/-- The directories beneath one, itself first, with their paths; at most so deep. -/
def directoriesBeneath (c : Choices) (w : Workspace) : Nat → String → Place → List (String × Place)
  | 0, _, _ => []
  | depth + 1, path, place =>
    let inner := (names c w place).filter fun name => w.node? (place ++ [name]) == some .directory
    let inner := if c.has 'r' then inner.reverse else inner
    (path, place) :: inner.flatMap fun name =>
      directoriesBeneath c w depth (Path.join path name) (place ++ [name])

/-- Directories with their paths as headings, divided by blank lines. -/
def sections (c : Choices) (w : Workspace) (directories : List (String × Place)) : List Octets :=
  directories.map fun (path, place) => Octets.ofText (path ++ ":\n") ++ directory c w place

end Listing

/-- What an operand leads to: a link to a directory leads to that if directories are to be
opened. -/
def Listing.found (c : Choices) (w : Workspace) (path : String) :
    Except FileError (Place × Node) := do
  let crosses := !(c.has 'd' || c.has 'F' || c.has 'l')
  match crosses, w.find? path, w.place? path with
  | true, .ok .directory, .ok place => .ok (place, .directory)
  | _, _, _ => if path == "." then .ok (w.home, .directory) else w.look? path

/-- Shows what directories hold. Files among the operands are shown first. -/
def list : Utility :=
  choosing Listing.vocabulary 2 fun name c => do
    let w := (← get).workspace
    let operands := (if c.operands.isEmpty then [['.']] else c.operands).map Octets.toText
    let operands := operands.mergeSort fun a b => decide (a ≤ b)
    let found := operands.filterMap fun path =>
      (Listing.found c w path).toOption.map fun (place, node) => (path, place, node)
    let missing := operands.filterMap fun path =>
      match Listing.found c w path with
      | .error e => some (path, e)
      | .ok _ => none
    missing.forM fun (path, e) => do
      complain name ("cannot access " ++ quoted (Octets.ofText path) ++ ": " ++ e.reason)
      Act.setStatus 2
    let isOpened (node : Node) := node == .directory && !c.has 'd'
    let files := found.filter fun (_, _, node) => !isOpened node
    let directories :=
      (found.filter fun (_, _, node) => isOpened node).map fun (path, place, _) => (path, place)
    let directories := if c.has 'r' then directories.reverse else directories
    let depth := w.nodes.length + 1
    let sections :=
      if c.has 'R' then
        Listing.sections c w (directories.flatMap fun (path, place) =>
          Listing.directoriesBeneath c w depth path place)
      else if operands.length == 1 then directories.map fun (_, place) =>
        Listing.directory c w place
      else Listing.sections c w directories
    let fileText := Listing.text c (files.map fun (path, place, _) => Listing.marked c w place path)
    Act.send 1 (['\n'].intercalate ((if files.isEmpty then [] else [fileText]) ++ sections))

namespace Finding

inductive Test where
  | name (pattern : Octets)
  | path (pattern : Octets)
  | type (letters : Octets)
  | empty
  | minDepth (n : Nat)
  | maxDepth (n : Nat)
  | always
  | negation

/-- The conditions that arguments write, or a complaint. -/
def tests : List Octets → Except String (List Test)
  | [] => .ok []
  | word :: rest =>
    let valued (make : Octets → Test) : Except String (List Test) :=
      match rest with
      | [] => .error ("missing argument to `" ++ Octets.toText word ++ "'")
      | value :: rest => (tests rest).map (make value :: ·)
    match Octets.toText word with
    | "-name" => valued .name
    | "-path" => valued .path
    | "-type" => valued fun value => .type (value.filter (· != ','))
    | "-mindepth" => valued fun value => .minDepth (Number.natOfDigits value)
    | "-maxdepth" => valued fun value => .maxDepth (Number.natOfDigits value)
    | "-empty" => (tests rest).map (.empty :: ·)
    | "-print" | "-a" | "-and" => (tests rest).map (.always :: ·)
    | "!" | "-not" => (tests rest).map (.negation :: ·)
    | text =>
      .error (if text.startsWith "-" then "unknown predicate `" ++ text ++ "'"
        else "paths must precede expression: `" ++ text ++ "'")

structure Entry where
  path : String
  place : Place
  depth : Nat

def Test.holds (w : Workspace) (e : Entry) : Test → Bool
  | name pattern =>
    let glyphs := pattern.map fun c => (⟨c, false⟩ : Glyph)
    Pattern.describes (Pattern.parts glyphs) (lastStep (Octets.ofText e.path))
  | path pattern =>
    let glyphs := pattern.map fun c => (⟨c, false⟩ : Glyph)
    Pattern.describes (Pattern.parts glyphs) (Octets.ofText e.path)
  | type letters => letters.any fun letter =>
    match w.node? e.place with
    | some .directory => letter == 'd'
    | some (.file _) => letter == 'f'
    | some (.link _) => letter == 'l'
    | some (.device _) => letter == 'c'
    | none => false
  | empty =>
    match w.node? e.place with
    | some .directory => (w.names e.place).isEmpty
    | some (.file content) => content.isEmpty
    | _ => false
  | minDepth n => n ≤ e.depth
  | maxDepth n => e.depth ≤ n
  | always => true
  | negation => true

def holdAll (w : Workspace) (e : Entry) : List Test → Bool
  | [] => true
  | .negation :: test :: rest => !test.holds w e && holdAll w e rest
  | test :: rest => test.holds w e && holdAll w e rest

def entries (w : Workspace) : Nat → Entry → List Entry
  | 0, _ => []
  | depth + 1, e =>
    e :: (w.names e.place).flatMap fun name =>
      entries w depth ⟨Path.join e.path name, e.place ++ [name], e.depth + 1⟩

end Finding

/-- Shows the paths beneath directories that fulfil conditions. -/
def find : Utility := fun name arguments => do
  let isPath (word : Octets) := !(['-'].isPrefixOf word || word == ['!'] || word == ['('])
  let paths := arguments.takeWhile isPath
  match Finding.tests (arguments.drop paths.length) with
  | .error message => complain name message
  | .ok tests => do
    (if paths.isEmpty then [['.']] else paths).forM fun path => do
      let w := (← get).workspace
      let text := Octets.toText path
      match w.look? text with
      | .ok (place, _) =>
        let found := (Finding.entries w (w.nodes.length + 1) ⟨text, place, 0⟩).filter fun e =>
          Finding.holdAll w e tests
        Act.send 1 (found.flatMap fun e => Octets.ofText (e.path ++ "\n"))
      | .error e => complain name (quoted path ++ ": " ++ e.reason)

end Turnery.Shell.Utility
