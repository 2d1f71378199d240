import Turnery.Error
import Turnery.Number.Digits

/-!
# Failures

A task that fails says what it was about and names the causes, each of which has brought about the
one before. A single cause is indented by four columns; several are numbered from zero.
-/

namespace Turnery.Command

/-- Why a task failed. -/
structure Failure where
  summary : String
  causes : List String
  deriving DecidableEq, Repr

namespace Failure

def causesOf : Error → List String
  | .io reason => [(Error.io reason).message, reason]
  | e => [e.message]

def ofError (summary : String) (e : Error) : Failure :=
  ⟨summary, causesOf e⟩

/-- A text whose first line starts with a lead and whose further lines are indented. -/
def indented (lead margin : String) (text : String) : String :=
  let lines := (text.toList.splitOn '\n').map String.ofList
  lead ++ ("\n" ++ margin).intercalate lines

/-- The lead of a numbered cause: the number is right-aligned in five columns. -/
def numberLead (index : Nat) : String :=
  let ds := Number.natText index
  String.ofList (List.replicate (5 - ds.length) ' ') ++ ds ++ ": "

def causeLines (causes : List String) : List String :=
  match causes with
  | [cause] => [indented "    " "    " cause]
  | _ => causes.zipIdx.map fun (cause, index) => indented (numberLead index) "       " cause

def text (failure : Failure) : String :=
  let causes :=
    if failure.causes.isEmpty then [] else ["", "Caused by:"] ++ causeLines failure.causes
  "Error: " ++ "\n".intercalate (failure.summary :: causes) ++ "\n"

end Failure

end Turnery.Command
