/-!
# The tree of a TOML document

Tables come about in several ways, and how one came about decides what may still be added to it: a
table with a header of its own is complete, one that merely lies on the way to another may still get
its header, and one made by dotted keys takes dotted keys only.
-/

namespace Turnery.Toml

/-- How a table came about. -/
inductive Origin where
  /-- By a header of its own. -/
  | header
  /-- On the way to the table of another header. -/
  | passage
  /-- By a dotted key. -/
  | dotted
  /-- Written as a value. -/
  | inline
  deriving DecidableEq, Repr

inductive Node where
  | text (s : String)
  | integer (n : Int)
  | real (x : Float)
  | bool (b : Bool)
  /-- A date, a time, or both. -/
  | moment
  | array (items : List Node)
  | table (origin : Origin) (entries : List (String × Node))
  /-- The tables of one repeated header. -/
  | tables (elements : List Node)

/-- The entries of a table, in the order in which they came. -/
abbrev Entries := List (String × Node)

namespace Entries

def replace (entries : Entries) (key : String) (node : Node) : Entries :=
  entries.map fun entry => if entry.1 == key then (key, node) else entry

def remove (entries : Entries) (key : String) : Entries :=
  entries.filter fun entry => entry.1 != key

/-- What is made of the table at the end of a path: its new entries and a result. -/
abbrev Change (β : Type) := Origin → Entries → Option (Entries × β)

/-- Makes a change to the table at the end of a path. Tables that are missing on the way are made. A
path of a dotted key does not lead into tables that have a header, and no path leads into a
value. -/
def updateAt {β : Type} (dotted : Bool) (change : Change β) : List String → Change β
  | [], origin, entries => change origin entries
  | key :: rest, _, entries =>
    match entries.lookup key with
    | none =>
      let origin := if dotted then .dotted else .passage
      (updateAt dotted change rest origin []).map fun (child, result) =>
        (entries ++ [(key, .table origin child)], result)
    | some (.table origin child) =>
      if origin == .inline || (dotted && origin == .header) then none
      else
        (updateAt dotted change rest origin child).map fun (child, result) =>
          (replace entries key (.table origin child), result)
    | some (.tables elements) =>
      match elements.getLast? with
      | some (.table origin child) =>
        (updateAt dotted change rest origin child).map fun (child, result) =>
          (replace entries key (.tables (elements.dropLast ++ [.table origin child])), result)
      | _ => none
    | some _ => none

/-- Adds an entry at the end of a path; the key must be new, and a path of more than a key leads
through dotted tables only. -/
def insertAt (entries : Entries) (path : List String) (key : String) (node : Node) :
    Option Entries :=
  let change : Change Unit := fun origin entries =>
    if (!path.isEmpty && origin != .dotted) || (entries.lookup key).isSome then none
    else some (entries ++ [(key, node)], ())
  (updateAt true change path .header entries).map Prod.fst

theorem insertAt_new {entries : Entries} {key : String} (node : Node)
    (h : entries.lookup key = none) :
    insertAt entries [] key node = some (entries ++ [(key, node)]) := by
  simp [insertAt, updateAt, h]

theorem insertAt_present {entries : Entries} {key : String} (node : Node)
    (h : (entries.lookup key).isSome) :
    insertAt entries [] key node = none := by
  simp [insertAt, updateAt, h]

end Entries

end Turnery.Toml
