import Turnery.Shell.Utility.Choice
import Turnery.Shell.Utility.Editor.Script

/-!
# The line editor

The editor takes one line after another, does the commands of its script with it and shows it. A
second text is kept from line to line.
-/

namespace Turnery.Shell.Editor

open Turnery.Files

/-- A line to be read, and whether a newline ends it. -/
structure Line where
  text : Octets
  isEnded : Bool

structure Desk where
  /-- The text that is edited. -/
  space : Octets
  /-- The text that is kept. -/
  kept : Octets
  /-- The number of the line. -/
  number : Nat
  /-- The lines that follow. -/
  lines : List Line
  /-- A newline ends the current line. -/
  isEnded : Bool
  /-- What was shown, the latest first. -/
  shown : List Octets
  /-- The newline behind what was shown last is still to come. -/
  owesNewline : Bool
  /-- What is to be shown behind the current line, the latest first; with each text, whether it is
  shown as it is. -/
  queue : List (Octets × Bool)
  /-- Something was replaced since the line was read. -/
  hasChanged : Bool
  /-- The commands whose ranges have begun, with the line that ends each if that is known. -/
  active : List (Nat × Option Nat)
  /-- The regular expression that was used last. -/
  latest : Option Regex
  /-- What was written to files. -/
  files : List (Octets × Octets)

namespace Desk

/-- The desk before any line is read. The ranges have begun that begin before the first line. -/
def start (cs : List Command) (lines : List Line) : Desk where
  space := []
  kept := []
  number := 0
  lines := lines
  isEnded := true
  shown := []
  owesNewline := false
  queue := []
  hasChanged := false
  active := (cs.zipIdx 0).filterMap fun (c, n) => match c.selection.start with
    | some (.line 0) => some (n, none)
    | _ => none
  latest := none
  files := []

/-- The desk after a text was shown, with a newline behind it or without. -/
def put (d : Desk) (text : Octets) (isEnded : Bool) : Desk :=
  let lead := if d.owesNewline then ['\n'] else []
  { d with
    shown := (lead ++ text ++ (if isEnded then ['\n'] else [])) :: d.shown
    owesNewline := !isEnded }

/-- The desk after text of whole lines was shown. -/
def putLines (d : Desk) (text : Octets) : Desk :=
  if text.isEmpty then d
  else
    let isEnded := text.getLast? == some '\n'
    d.put (if isEnded then text.dropLast else text) isEnded

/-- The desk after the edited text was shown. -/
def print (d : Desk) : Desk :=
  d.put d.space d.isEnded

def putRaw (d : Desk) (text : Octets) : Desk :=
  if text.isEmpty then d else { d.put text false with owesNewline := false }

/-- The desk after what was to be shown behind the line. -/
def flush (d : Desk) : Desk :=
  { d.queue.reverse.foldl (fun d (text, isRaw) => if isRaw then d.putRaw text else d.putLines text)
    d with queue := [] }

def write (d : Desk) (path text : Octets) : Desk :=
  let old := (d.files.lookup path).getD []
  if path == "/dev/stdout".toList then d.putLines text
  else { d with files := (path, old ++ text) :: d.files.filter fun entry => entry.1 != path }

def next? (d : Desk) : Option (Line × Desk) :=
  match d.lines with
  | [] => none
  | line :: rest =>
    some (line, { d.flush with lines := rest, number := d.number + 1, isEnded := line.isEnded })

end Desk

/-- The regular expression that is meant, which is the latest one from now on. -/
def meant (r : Option Regex) (d : Desk) : Option Regex × Desk :=
  let r := r.or d.latest
  (r, { d with latest := r })

def Address.holds (d : Desk) : Address → Bool × Desk
  | line n => (d.number == n, d)
  | last => (d.lines.isEmpty, d)
  | described r =>
    let (r, d) := meant r d
    (r.any fun r => r.occursIn d.space, d)
  | every first step =>
    (if step == 0 then d.number == first else first ≤ d.number && (d.number - first) % step == 0, d)

/-- The end of a range that begins at the current line: whether there is more than this line, and
the line that ends it if that is known. -/
def Finish.begin (d : Desk) : Finish → Option (Option Nat)
  | address (.line n) => if n ≤ d.number then none else some (some n)
  | address _ => some none
  | count n => if n == 0 then none else some (some (d.number + n))
  | multiple n =>
    if n == 0 || d.number % n == 0 then none else some (some ((d.number / n + 1) * n))

/-- The current line is in the range of the command with a number. -/
def inRange (index : Nat) (start : Address) (finish : Finish) (d : Desk) : Bool × Desk :=
  let without := d.active.filter fun entry => entry.1 != index
  match d.active.lookup index with
  | some (some last) =>
    if last ≤ d.number then (d.number == last, { d with active := without }) else (true, d)
  | some none =>
    match finish with
    | .address a =>
      let (isLast, d) := a.holds d
      (true, if isLast then { d with active := without } else d)
    | _ => (true, d)
  | none =>
    let (begins, d) := start.holds d
    if !begins then (false, d)
    else
      match finish.begin d with
      | none => (true, d)
      | some last => (true, { d with active := (index, last) :: without })

/-- The command with a number is carried out for the current line. -/
def Selection.holds (index : Nat) (s : Selection) (d : Desk) : Bool × Desk :=
  let (holds, d) := match s.start, s.finish with
    | none, _ => (true, d)
    | some start, none => start.holds d
    | some start, some finish => inRange index start finish d
  (holds != s.isNegated, d)

/-- How the case of characters is changed: of all that follow, and of the next. -/
structure Casing where
  all : Option Char
  next : Option Char

def Casing.apply (k : Casing) (text : Octets) : Octets × Casing :=
  let changed (sign : Option Char) (c : Char) : Char :=
    match sign with
    | some 'U' | some 'u' => c.toUpper
    | some 'L' | some 'l' => c.toLower
    | _ => c
  match text with
  | [] => ([], k)
  | c :: rest => (changed (k.next.or k.all) c :: rest.map (changed k.all), { k with next := none })

def replacement (f : Regex.Found) : Casing → List Part → Octets
  | _, [] => []
  | k, .letters sign :: rest =>
    let k := if sign == 'U' || sign == 'L' then ⟨some sign, k.next⟩
      else if sign == 'E' then ⟨none, none⟩ else { k with next := some sign }
    replacement f k rest
  | k, .text text :: rest =>
    let (text, k) := k.apply text
    text ++ replacement f k rest
  | k, .group n :: rest =>
    let (text, k) := k.apply (if n == 0 then f.piece else f.spot.group n)
    text ++ replacement f k rest

/-- A text with pieces replaced, at most so many, and whether any was; a count tells how many have
been found before. An empty piece does not follow another piece directly. -/
def replaced (r : Regex) (s : Substitution) :
    Nat → Nat → Bool → Option Char → Octets → Octets × Bool
  | 0, _, _, _, text => (text, false)
  | more + 1, count, afterPiece, before, text =>
    match r.find? before text with
    | none => (text, false)
    | some f =>
      if afterPiece && f.front.isEmpty && f.piece.isEmpty then
        match text with
        | [] => ([], false)
        | c :: rest =>
          let (others, isChanged) := replaced r s more count false (some c) rest
          (c :: others, isChanged)
      else
        let count := count + 1
        let isWanted := count == s.place || (s.isGlobal && s.place < count)
        let piece := if isWanted then replacement f ⟨none, none⟩ s.parts else f.piece
        if isWanted && !s.isGlobal then (f.front ++ piece ++ f.spot.rest, true)
        else
          match f.piece, f.spot.rest with
          | [], [] => (f.front ++ piece, isWanted)
          | [], c :: rest =>
            let (others, isChanged) := replaced r s more count false (some c) rest
            (f.front ++ piece ++ c :: others, isWanted || isChanged)
          | _, rest =>
            let (others, isChanged) := replaced r s more count true f.spot.before rest
            (f.front ++ piece ++ others, isWanted || isChanged)

inductive Next where
  | at (index : Nat)
  /-- The commands are over for this line, which is shown if wanted. -/
  | finished (prints : Bool)
  /-- The commands start again with what is left of the text. -/
  | again
  | quit (prints : Bool) (status : Nat)

/-- Where the block ends that is opened in front of some commands, as a distance. -/
def blockLength : Nat → List Command → Nat
  | _, [] => 0
  | depth, c :: rest =>
    match c.action with
    | .opening => 1 + blockLength (depth + 1) rest
    | .closing => if depth == 0 then 1 else 1 + blockLength (depth - 1) rest
    | _ => 1 + blockLength depth rest

/-- The characters of a text in a form that shows them all. -/
def visible (text : Octets) : Octets :=
  text.flatMap fun c =>
    match c with
    | '\\' => ['\\', '\\']
    | '\x07' => ['\\', 'a']
    | '\x08' => ['\\', 'b']
    | '\x0c' => ['\\', 'f']
    | '\n' => ['\\', 'n']
    | '\r' => ['\\', 'r']
    | '\t' => ['\\', 't']
    | '\x0b' => ['\\', 'v']
    | c => if Utility.isHidden c then Utility.hiddenSign c else [c]

/-- A long line with backslashes where it is broken, in at most so many pieces. -/
def folded : Nat → Octets → Octets
  | 0, text => text
  | more + 1, text =>
    if text.length ≤ 69 then text else text.take 69 ++ '\\' :: '\n' :: folded more (text.drop 69)

structure Setting where
  commands : List Command
  isSilent : Bool
  workspace : Workspace
  /-- The path that is read from, as far as there is one. -/
  path : Octets

/-- Carries out a command by a letter alone. -/
def simple (e : Setting) (index : Nat) (letter : Char) (d : Desk) : Next × Desk :=
  let onward (d : Desk) : Next × Desk := (.at (index + 1), d)
  match letter with
  | '=' => onward (d.put (Number.digits d.number) true)
  | 'd' => (.finished false, d)
  | 'D' =>
    match d.space.dropWhile (· != '\n') with
    | [] => (.finished false, d)
    | _ :: rest => (.again, { d with space := rest })
  | 'F' => onward (d.put e.path true)
  | 'g' => onward { d with space := d.kept }
  | 'G' => onward { d with space := d.space ++ '\n' :: d.kept }
  | 'h' => onward { d with kept := d.space }
  | 'H' => onward { d with kept := d.kept ++ '\n' :: d.space }
  | 'x' => onward { d with space := d.kept, kept := d.space }
  | 'l' => onward (d.put (folded d.space.length (visible d.space ++ ['$'])) true)
  | 'n' =>
    if d.lines.isEmpty then (.finished true, d)
    else
      let d := if e.isSilent then d else d.print
      match d.next? with
      | some (line, d) => onward { d with space := line.text }
      | none => (.finished true, d)
  | 'N' =>
    match d.next? with
    | some (line, d) => onward { d with space := d.space ++ '\n' :: line.text }
    | none => (.finished true, d)
  | 'p' => onward d.print
  | 'P' => onward (d.put (d.space.takeWhile (· != '\n')) true)
  | 'z' => onward { d with space := [] }
  | _ => onward d

def perform (e : Setting) (index : Nat) (c : Command) (d : Desk) : Next × Desk :=
  let onward (d : Desk) : Next × Desk := (.at (index + 1), d)
  match c.action with
  | .opening | .closing | .label _ => onward d
  | .jump kind name =>
    let goes := match kind with
      | .always => true
      | .changed => d.hasChanged
      | .unchanged => !d.hasChanged
    let d := if kind == .always then d else { d with hasChanged := false }
    if !goes then onward d
    else if name.isEmpty then (.finished true, d)
    else
      let place := e.commands.findIdx fun c => match c.action with
        | .label other => other == name
        | _ => false
      (.at place, d)
  | .substitute s =>
    let (r, d) := meant s.pattern d
    let r := r.getD (.oneOf false [])
    let (text, isChanged) := replaced r s (2 * d.space.length + 2) 0 false none d.space
    if !isChanged then onward d
    else
      let d := { d with space := text, hasChanged := true }
      let d := if s.prints then d.print else d
      onward (s.file.elim d fun path => d.write path (text ++ ['\n']))
  | .exchange source target =>
    let exchanged (c : Char) := match source.findIdx? (· == c) with
      | some i => (target[i]?).getD c
      | none => c
    onward { d with space := d.space.map exchanged }
  | .append text => onward { d with queue := (text, false) :: d.queue }
  | .insert text => onward (d.putLines text)
  | .change text =>
    let isInside :=
      c.selection.finish.isSome && !c.selection.isNegated && (d.active.lookup index).isSome
    (.finished false, if isInside && !d.lines.isEmpty then d else d.putLines text)
  | .readFile path =>
    let text := ((e.workspace.read (Octets.toText path)).map Octets.ofBytes).toOption.getD []
    onward { d with queue := (text, true) :: d.queue }
  | .writeFile path => onward (d.write path (d.space ++ ['\n']))
  | .quit prints status => (.quit prints status, d)
  | .simple letter => simple e index letter d

/-- Carries out the commands from a number on, at most so many. -/
def run (e : Setting) : Nat → Nat → Desk → Next × Desk
  | 0, _, d => (.finished true, d)
  | more + 1, index, d =>
    match e.commands[index]? with
    | none => (.finished true, d)
    | some c =>
      let (holds, d) := c.selection.holds index d
      if !holds then
        let distance := match c.action with
          | .opening => 1 + blockLength 0 (e.commands.drop (index + 1))
          | _ => 1
        run e more (index + distance) d
      else
        match perform e index c d with
        | (.at index, d) => run e more index d
        | result => result

/-- How many commands are carried out for one line. -/
def effort : Nat := 20000

/-- Deals with lines, at most so many times: the status, and the desk that is left. A first line may
be there already. -/
def cycles (e : Setting) : Nat → Bool → Desk → Nat × Desk
  | 0, _, d => (0, d)
  | more + 1, isRead, d =>
    let started := if isRead then some d
      else d.next?.map fun (line, d) => { d with space := line.text, hasChanged := false }
    match started with
    | none => (0, d)
    | some d =>
      match run e effort 0 d with
      | (.finished prints, d) =>
        cycles e more false (if prints && !e.isSilent then d.print else d).flush
      | (.again, d) => cycles e more true d.flush
      | (.quit prints status, d) =>
        (status, if prints then (if e.isSilent then d else d.print).flush else d)
      | (.at _, d) => cycles e more false d

def linesOf (text : Octets) : List Line :=
  let pieces := text.splitOn '\n'
  (pieces.dropLast.map fun t => ⟨t, true⟩) ++
    (match pieces.getLast? with
      | some [] | none => []
      | some last => [⟨last, false⟩])

def edit (e : Setting) (lines : List Line) : Nat × Desk :=
  cycles e (effort + lines.length) false (Desk.start e.commands lines)

def Desk.output (d : Desk) : Octets :=
  d.shown.reverse.flatten

end Turnery.Shell.Editor

namespace Turnery.Shell.Utility

open Turnery.Files

namespace Editing

def vocabulary : Vocabulary where
  flags := "nErisuz"
  valued := "efil"
  words :=
    [("quiet", 'n'), ("silent", 'n'), ("expression", 'e'), ("file", 'f'), ("regexp-extended", 'E'),
    ("in-place", 'i'), ("separate", 's')]
  isOrdered := false

/-- The texts of files, and the status that is due to those that cannot be read. A complaint is made
about each of them; nothing is read behind a directory. -/
def texts (name : Octets) (inPlace : Bool) : List Octets → Act (List (Octets × Octets) × Nat)
  | [] => pure ([], 0)
  | path :: rest => do
    let isDirectory := ((← get).workspace.find? (Octets.toText path)).toOption == some .directory
    let text := Octets.toText path
    match ← load path with
    | .ok content => do
      let (others, status) ← texts name inPlace rest
      pure ((path, content) :: others, status)
    | .error reason =>
      if isDirectory && !inPlace then do
        complain name ("read error on " ++ text ++ ": " ++ reason)
        pure ([], 4)
      else do
        complain name
          (if isDirectory then "couldn't edit " ++ text ++ ": not a regular file"
          else "can't read " ++ text ++ ": " ++ reason)
        let (others, status) ← texts name inPlace rest
        pure (others, max status (if isDirectory then 4 else 2))

/-- Puts an edited text in place of a file, or of a link to it. -/
def replaceFile (path text : Octets) : Act Unit := do
  let s ← get
  match s.workspace.entry? (Octets.toText path) with
  | .ok place => set { s with workspace := s.workspace.put place (.file (Octets.toBytes text)) }
  | .error _ => pure ()

def store (files : List (Octets × Octets)) : Act Unit :=
  files.forM fun (path, text) => do
    let s ← get
    match s.workspace.write (Octets.toText path) (Octets.toBytes text) with
    | .ok w => set { s with workspace := w }
    | .error _ => pure ()

def each (e : Editor.Setting) (inPlace : Option Octets) : List (Octets × Octets) → Act Nat
  | [] => pure 0
  | (path, text) :: rest => do
    let (status, d) := Editor.edit { e with path := path } (Editor.linesOf text)
    store d.files
    match inPlace with
    | none => Act.send 1 d.output
    | some ending => do
      if !ending.isEmpty then store [(path ++ ending, text)]
      replaceFile path d.output
    if status != 0 then pure status else each e inPlace rest

end Editing

/-- Edits texts by the commands of a script. -/
def editLines : Utility :=
  choosing Editing.vocabulary 1 fun name c => do
    let mut pieces := c.values 'e'
    for path in c.values 'f' do
      match ← load path with
      | .ok text => pieces := pieces ++ [if text.getLast? == some '\n' then text.dropLast else text]
      | .error reason =>
        complain name ("couldn't open file " ++ Octets.toText path ++ ": " ++ reason)
    let isGiven := c.has 'e' || c.has 'f'
    match if isGiven then some (['\n'].intercalate pieces, c.operands)
      else c.operands.head?.map fun text => (text, c.operands.drop 1) with
    | none => refuse name "no script specified"
    | some (script, operands) =>
      match Editor.read (c.has 'E' || c.has 'r') script with
      | .error (message, status) => do
        complain name message
        Act.setStatus status
      | .ok commands => do
        let isSilent := c.has 'n' || ("#n\n".toList.isPrefixOf script || script == ['#', 'n'])
        let (texts, fault) ← Editing.texts name (c.has 'i') (orInput operands)
        let e : Editor.Setting := ⟨commands, isSilent, (← get).workspace, ['-']⟩
        let status ←
          if c.has 'i' then Editing.each e (c.value? 'i') texts
          else if c.has 's' then Editing.each e none texts
          else do
            let lines := texts.flatMap fun entry => Editor.linesOf entry.2
            let isLast (n : Nat) := n + 1 == lines.length
            let lines := (lines.zipIdx 0).map fun (line, n) =>
              if isLast n then line else { line with isEnded := true }
            let (status, d) := Editor.edit e lines
            Editing.store d.files
            Act.send 1 d.output
            pure status
        Act.setStatus (if status != 0 then status else fault)

end Turnery.Shell.Utility
