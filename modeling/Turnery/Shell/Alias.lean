import Turnery.Shell.Token

/-!
# Replacements of words

A word where a command begins may have a replacement, which is read as tokens in its place. Within
it the same word is not replaced again. What follows the command at hand is replaced only when its
turn comes.
-/

namespace Turnery.Shell.Alias

/-- The words behind which a command begins. -/
def starters : List String :=
  ["!", "do", "elif", "else", "if", "then", "until", "while", "\x7b"]

/-- Whether a command begins behind a token. -/
def startsBehind (atStart : Bool) (token : Token) : Bool :=
  match token with
  | .word w =>
    atStart && ((Word.assignment? w).isSome || ((Token.bareText? token).any starters.contains))
  | .redirection _ => atStart
  | _ => true

/-- The tokens with words replaced; at most so many tokens are looked at. -/
def expand : Nat → List (Octets × Octets) → Bool → List Lexeme → List Lexeme
  | 0, _, _, tokens => tokens
  | _ + 1, _, _, [] => []
  | more + 1, aliases, atStart, l :: rest =>
    let name? := match l.token with
      | .word w => if atStart then Word.bare? w else none
      | _ => none
    match name?.bind fun name => (aliases.lookup name).map fun value => (name, value) with
    | none => l :: expand more aliases (startsBehind atStart l.token) rest
    | some (name, value) =>
      let inner := (Token.ofText l.line value).dropLast.map fun k => { k with line := l.line }
      let others := aliases.filter fun entry => entry.1 != name
      expand more others true inner ++ expand more aliases (value.getLast?.any Token.isBlank) rest

def replaced (aliases : List (Octets × Octets)) (tokens : List Lexeme) : List Lexeme :=
  if aliases.isEmpty then tokens else expand (tokens.length + 1) aliases true tokens

/-- The tokens that a rest of the replaced ones has come from. It starts on a line of its own. -/
def unreplaced (aliases : List (Octets × Octets)) (tokens rest : List Lexeme) : List Lexeme :=
  if aliases.isEmpty then rest
  else
    match rest with
    | [] | ⟨.finish, _⟩ :: _ => []
    | l :: _ => tokens.dropWhile fun k => k.line < l.line

end Turnery.Shell.Alias
