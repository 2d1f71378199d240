import Turnery.Shell.Pattern

/-!
# Fields

What an expanded word consists of is cut into fields. Only the results of unquoted expansions are
cut, at separators; separators that are blanks count together, any other separator ends a field of
its own.
-/

namespace Turnery.Shell

inductive Mark where
  | glyph (g : Glyph)
  /-- A character that an unquoted expansion has given. -/
  | result (c : Char)
  /-- Quotes make a field even if there is nothing in them. -/
  | presence
  /-- One field ends here and another may begin. -/
  | boundary
  deriving DecidableEq, Repr

namespace Mark

def ofQuoted (text : Octets) : List Mark :=
  presence :: text.map fun c => glyph ⟨c, true⟩

def ofResult (quoted : Bool) (text : Octets) : List Mark :=
  if quoted then ofQuoted text else text.map result

/-- The mark as a part of an expansion's result. -/
def asResult (quoted : Bool) : Mark → Mark
  | glyph g =>
    if quoted then glyph { g with literal := true } else if g.literal then glyph g
    else result g.char
  | mark => mark

def joined (marks : List Mark) : List Glyph :=
  marks.filterMap fun
    | glyph g => some g
    | result c => some ⟨c, false⟩
    | presence => none
    | boundary => some ⟨' ', false⟩

end Mark

/-- Fields on the way: those that are complete, the one at hand, and whether blanks have just ended
one. All are reversed. -/
structure Cutting where
  complete : List (List Glyph)
  current : Option (List Glyph)
  afterBlank : Bool

namespace Cutting

def start : Cutting := ⟨[], none, false⟩

def add (c : Cutting) (g : Glyph) : Cutting :=
  ⟨c.complete, some (g :: c.current.getD []), false⟩

def close (c : Cutting) (afterBlank : Bool) : Cutting :=
  match c.current with
  | some field => ⟨field :: c.complete, none, afterBlank⟩
  | none => { c with afterBlank := c.afterBlank && afterBlank }

def isBlank (c : Char) : Bool :=
  c == ' ' || c == '\t' || c == '\n'

def addResult (separators : Octets) (c : Cutting) (char : Char) : Cutting :=
  if !separators.contains char then c.add ⟨char, false⟩
  else if isBlank char then
    match c.current with
    | some field => ⟨field :: c.complete, none, true⟩
    | none => c
  else
    match c.current with
    | some field => ⟨field :: c.complete, none, false⟩
    | none =>
      if c.afterBlank then { c with afterBlank := false } else ⟨[] :: c.complete, none, false⟩

def step (separators : Octets) (c : Cutting) : Mark → Cutting
  | .glyph g => c.add g
  | .result char => c.addResult separators char
  | .presence => { c with current := some (c.current.getD []), afterBlank := false }
  | .boundary => c.close false

end Cutting

def fields (separators : Octets) (marks : List Mark) : List (List Glyph) :=
  let c := (marks.foldl (Cutting.step separators) .start).close false
  (c.complete.map List.reverse).reverse

def Glyph.text (glyphs : List Glyph) : Octets :=
  glyphs.map Glyph.char

end Turnery.Shell
