import Turnery.Shell.Field

/-!
# Lines that are read

A line is read into a number of variables: each takes a field, the last one the rest. A backslash
protects a character and joins lines, unless the line is read as it is.
-/

namespace Turnery.Shell.InputLine

/-- A line, whether its end was found, and what follows it. -/
structure Taken where
  line : List Glyph
  complete : Bool
  rest : Octets

def Taken.push (g : Glyph) (t : Taken) : Taken :=
  { t with line := g :: t.line }

def take (raw : Bool) : Octets → Taken
  | [] => ⟨[], false, []⟩
  | '\n' :: rest => ⟨[], true, rest⟩
  | '\\' :: c :: rest =>
    if raw then (take raw (c :: rest)).push ⟨'\\', false⟩
    else if c == '\n' then take raw rest
    else (take raw rest).push ⟨c, true⟩
  | c :: rest =>
    if c == '\x00' || (c == '\\' && !raw) then take raw rest else (take raw rest).push ⟨c, false⟩

def isSeparator (separators : Octets) (g : Glyph) : Bool :=
  !g.literal && separators.contains g.char

def isBlank (separators : Octets) (g : Glyph) : Bool :=
  isSeparator separators g && Cutting.isBlank g.char

def skipSeparator (separators : Octets) (line : List Glyph) : List Glyph :=
  match line.dropWhile (isBlank separators) with
  | [] => []
  | g :: rest =>
    if isSeparator separators g then rest.dropWhile (isBlank separators) else g :: rest

def dropBlanksAtEnd (separators : Octets) (line : List Glyph) : List Glyph :=
  (line.reverse.dropWhile (isBlank separators)).reverse

/-- The texts for a number of variables. The last one has its separators kept, unless there is but
one field, with but one separator behind it. -/
def split (separators : Octets) : Nat → List Glyph → List Octets
  | 0, _ => []
  | more + 1, line =>
    let field := line.takeWhile fun g => !isSeparator separators g
    let rest := skipSeparator separators (line.drop field.length)
    if more == 0 then
      [Glyph.text (if rest.isEmpty then field else dropBlanksAtEnd separators line)]
    else Glyph.text field :: split separators more rest

/-- The texts of a line for a number of variables. -/
def values (separators : Octets) (count : Nat) (line : List Glyph) : List Octets :=
  split separators count (line.dropWhile (isBlank separators))

end Turnery.Shell.InputLine
