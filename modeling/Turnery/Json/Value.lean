import Turnery.Json.Number

/-!
# JSON values

The tree of a JSON text. Numbers are kept as their lexemes, and a string whose escapes do not name
characters is kept as `none`, so that a part of a text that nobody looks at need not make sense. A
tree is sound if all of it does and it is not nested too deeply.
-/

namespace Turnery.Json

/-- A JSON value as it is written. -/
inductive Value where
  | null
  | bool (b : Bool)
  | number (lexeme : List Char)
  | string (text : Option String)
  | array (items : List Value)
  | object (members : List (Option String × Value))

namespace Value

/-- How deeply arrays and objects may be nested. -/
def maxDepth : Nat := 127

mutual

/-- All numbers are in range, all strings are texts, and the nesting is no deeper than given. -/
def isSound (room : Nat) : Value → Bool
  | null => true
  | bool _ => true
  | number lexeme => (Lexeme.value? lexeme).isSome
  | string text => text.isSome
  | array items => room != 0 && areSound (room - 1) items
  | object members => room != 0 && areSoundMembers (room - 1) members

def areSound (room : Nat) : List Value → Bool
  | [] => true
  | item :: items => isSound room item && areSound room items

/-- Every member has a text as its name and a sound value. -/
def areSoundMembers (room : Nat) : List (Option String × Value) → Bool
  | [] => true
  | (name, value) :: members => name.isSome && isSound room value && areSoundMembers room members

end

/-- The member of a name; of several the last. -/
def member? (name : String) : Value → Option Value
  | object members => members.reverse.lookup (some name)
  | _ => none

def items? : Value → Option (List Value)
  | array items => some items
  | _ => none

def text? : Value → Option String
  | string text => text
  | _ => none

end Value

end Turnery.Json
