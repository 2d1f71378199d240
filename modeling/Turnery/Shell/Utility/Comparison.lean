import Turnery.Shell.Utility.Choice

/-!
# Comparing texts

Where two texts differ first, and by which lines they differ.
-/

namespace Turnery.Shell.Utility

open Turnery.Files

namespace Comparison

/-- Complains twice, the second time with a hint how to find help. -/
def reject (name : Octets) (message : String) : Act Unit := do
  complain name message
  complain name ("Try '" ++ Octets.toText name ++ " --help' for more information.")
  Act.setStatus 2

/-- How two texts compare: the first place where they differ, or which of them ends first. -/
inductive Outcome where
  | equal
  | differ (place line : Nat)
  | ends (isFirst : Bool) (place line : Nat)

/-- Compares texts, given the place and the line where they stand. -/
def outcome : Nat → Nat → Octets → Octets → Outcome
  | _, _, [], [] => .equal
  | place, line, [], _ :: _ => .ends true place line
  | place, line, _ :: _, [] => .ends false place line
  | place, line, a :: as, b :: bs =>
    if a == b then outcome (place + 1) (if a == '\n' then line + 1 else line) as bs
    else .differ (place + 1) line

end Comparison

/-- Tells where two texts differ first. -/
def compareBytes : Utility :=
  choosingOr ⟨"bls", "in", [("quiet", 's'), ("silent", 's'), ("bytes", 'n')], false⟩
      Comparison.reject fun name c => do
    match c.operands with
    | [] => Comparison.reject name ("missing operand after '" ++ Octets.toText name ++ "'")
    | first :: others => do
      let second := others.headD ['-']
      match ← load first, ← load second with
      | .error reason, _ => do
        if !c.has 's' then complain name (shown first ++ ": " ++ reason)
        Act.setStatus 2
      | .ok _, .error reason => do
        if !c.has 's' then complain name (shown second ++ ": " ++ reason)
        Act.setStatus 2
      | .ok a, .ok b =>
        let limited (text : Octets) := ((c.value? 'n').bind size?).elim text fun n => text.take n
        match Comparison.outcome 0 1 (limited a) (limited b) with
        | .equal => pure ()
        | .differ place line => do
          if !c.has 's' then
            Act.send 1
              (Octets.ofText (shown first ++ " " ++ shown second ++ " differ: char " ++
              Number.natText place ++ ", line " ++ Number.natText line ++ "\n"))
          Act.setStatus 1
        | .ends isFirst place line => do
          let path := if isFirst then first else second
          let isWhole := (limited (if isFirst then a else b)).getLast? == some '\n'
          if !c.has 's' then
            complain name ("EOF on " ++ shown path ++
              (if place == 0 then " which is empty"
              else " after byte " ++ Number.natText place ++
                (if isWhole then ", line " ++ Number.natText (line - 1)
                  else ", in line " ++ Number.natText line)))
          Act.setStatus 1

namespace Comparison

/-- The lengths of the longest common parts of what is left of two lists: one row for each item of
the first, the last row for its end. -/
def lengths (as bs : List Octets) : List (List Nat) :=
  as.foldr (fun a rows =>
    let below := rows.headD []
    let row := ((bs.zip (below.zip (below.drop 1))).foldr (fun (b, straight, diagonal) row =>
      (if a == b then diagonal + 1 else max straight (row.headD 0)) :: row) [0])
    row :: rows) [List.replicate (bs.length + 1) 0]

inductive Edit where
  | keep (line : Octets)
  | drop (line : Octets)
  | add (line : Octets)

/-- The steps that lead from one list to another, of which there are at most so many, by the table
of lengths. -/
def edits : Nat → List (List Nat) → List Octets → List Octets → List Edit
  | 0, _, _, _ => []
  | _, _, [], bs => bs.map .add
  | _, _, as, [] => as.map .drop
  | more + 1, rows, a :: as, b :: bs =>
    if a == b then .keep a :: edits more ((rows.drop 1).map (List.drop 1)) as bs
    else
      let straight := ((rows[1]?).getD []).headD 0
      let across := (((rows.headD []).drop 1).headD 0)
      if across ≤ straight then .drop a :: edits more (rows.drop 1) as (b :: bs)
      else .add b :: edits more (rows.map (List.drop 1)) (a :: as) bs

/-- Lines that are dropped and added at a place of both texts. -/
structure Hunk where
  first : Nat
  second : Nat
  dropped : List Octets
  added : List Octets

/-- The hunks of some steps, given the lines that have been kept or changed before, and the hunk
that is open. -/
def hunks : Hunk → List Edit → List Hunk
  | open', [] => [open']
  | open', .keep _ :: rest =>
    let next : Hunk :=
      ⟨open'.first + open'.dropped.length + 1, open'.second + open'.added.length + 1, [], []⟩
    open' :: hunks next rest
  | open', .drop line :: rest => hunks { open' with dropped := open'.dropped ++ [line] } rest
  | open', .add line :: rest => hunks { open' with added := open'.added ++ [line] } rest

def span (place count : Nat) : String :=
  if count == 0 then Number.natText place
  else if count == 1 then Number.natText (place + 1)
  else Number.natText (place + 1) ++ "," ++ Number.natText (place + count)

/-- A hunk as it is shown; lines without a newline at their end are told of. -/
def Hunk.text (h : Hunk) : Octets :=
  let letter := if h.dropped.isEmpty then "a" else if h.added.isEmpty then "d" else "c"
  let side (mark : String) (lines : List Octets) : Octets :=
    lines.flatMap fun line =>
      Octets.ofText mark ++
        (if line.getLast? == some '\n' then line
          else line ++ "\n\\ No newline at end of file\n".toList)
  Octets.ofText (span h.first h.dropped.length ++ letter ++ span h.second h.added.length ++ "\n") ++
    side "< " h.dropped ++
    (if h.dropped.isEmpty || h.added.isEmpty then [] else "---\n".toList) ++ side "> " h.added

/-- What is shown of the difference of two texts. -/
def difference (a b : Octets) : Octets :=
  let (as, bs) := (lines a, lines b)
  let steps := edits (as.length + bs.length + 1) (lengths as bs) as bs
  ((hunks ⟨0, 0, [], []⟩ steps).filter fun h => !(h.dropped.isEmpty && h.added.isEmpty)).flatMap
    Hunk.text

end Comparison

/-- Shows by which lines two texts differ. -/
def compareLines : Utility :=
  let vocabulary : Vocabulary :=
    ⟨"abBiqrsw", "", [("brief", 'q'), ("report-identical-files", 's')], false⟩
  choosingOr vocabulary Comparison.reject fun name c => do
    match c.operands with
    | [first, second] => do
      match ← load first, ← load second with
      | .error reason, other => do
        complain name (shown first ++ ": " ++ reason)
        match other with
        | .error reason => complain name (shown second ++ ": " ++ reason)
        | .ok _ => pure ()
        Act.setStatus 2
      | .ok _, .error reason => do
        complain name (shown second ++ ": " ++ reason)
        Act.setStatus 2
      | .ok a, .ok b =>
        let named (ending : String) :=
          Octets.ofText ("Files " ++ shown first ++ " and " ++ shown second ++ ending ++ "\n")
        if a == b then (if c.has 's' then Act.send 1 (named " are identical") else pure ())
        else do
          Act.send 1 (if c.has 'q' then named " differ" else Comparison.difference a b)
          Act.setStatus 1
    | [] => Comparison.reject name ("missing operand after '" ++ Octets.toText name ++ "'")
    | [only] => Comparison.reject name ("missing operand after " ++ quoted only)
    | _ :: _ :: extra :: _ => Comparison.reject name ("extra operand " ++ quoted extra)

end Turnery.Shell.Utility
