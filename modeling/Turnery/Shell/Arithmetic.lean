import Turnery.Number.Digits
import Turnery.Number.Radix
import Turnery.Shell.Octets
import Turnery.Shell.Word

/-!
# Arithmetic

Expressions over integers of 64 bits, in which variables can be read and set. The operators bind as
in mathematics; comparisons and logical operators give one or zero.
-/

namespace Turnery.Shell.Arithmetic

inductive Failure where
  | malformed
  /-- Something follows where the expression should end. -/
  | trailing
  | divisionByZero
  | illegalNumber (text : Octets)
  deriving DecidableEq, Repr

inductive Token where
  | number (n : Int)
  | name (text : Octets)
  | sign (text : String)
  deriving DecidableEq, Repr

/-- The variables, and those set meanwhile; the latest comes first. -/
abbrev Variables := List (Octets × Octets)

def wrap (n : Int) : Int :=
  n.bmod (Nat.pow 2 64)

/-- A number without sign: hexadecimal, octal or decimal. -/
def unsigned? (text : Octets) : Option Int :=
  match text with
  | '0' :: 'x' :: ds => if ds.isEmpty then none else (Number.natIn? 16 ds).map Int.ofNat
  | '0' :: 'X' :: ds => if ds.isEmpty then none else (Number.natIn? 16 ds).map Int.ofNat
  | '0' :: ds => (Number.natIn? 8 ds).map Int.ofNat
  | ds => if ds.isEmpty then none else (Number.natIn? 10 ds).map Int.ofNat

/-- The number at the front of a text that begins with a digit, and the rest. -/
def numberAt (text : Octets) : Int × Octets :=
  let (base, ds) := match text with
    | '0' :: 'x' :: rest => (16, rest)
    | '0' :: 'X' :: rest => (16, rest)
    | '0' :: _ => (8, text)
    | _ => (10, text)
  let digits := ds.takeWhile fun c => (Number.digitIn? base c).isSome
  ((Number.natIn? base digits).getD 0, ds.drop digits.length)

/-- An integer with or without sign and blanks around it; a blank text is zero. -/
def integer? (text : Octets) : Option Int :=
  let isSpace (c : Char) := c == ' ' || c == '\t' || c == '\n'
  let body := ((text.dropWhile isSpace).reverse.dropWhile isSpace).reverse
  match body with
  | [] => some 0
  | '-' :: ds => (unsigned? ds).map (-·)
  | '+' :: ds => unsigned? ds
  | ds => unsigned? ds

def text (n : Int) : Octets :=
  (if n < 0 then ['-'] else []) ++ Number.digits n.natAbs

/-- The signs, a longer one before its beginnings. -/
def signs : List String :=
  ["<<=", ">>=", "<<", ">>", "<=", ">=", "==", "!=", "&&", "||", "+=", "-=", "*=", "/=", "%=", "&=",
    "|=", "^=", "+", "-", "*", "/", "%", "<", ">", "=", "!", "~", "&", "|", "^", "(", ")", "?", ":"]

/-- The tokens of an expression, of which there are at most so many. -/
def tokensUpTo : Nat → Octets → Except Failure (List Token)
  | 0, _ => .ok []
  | more + 1, text =>
    match text with
    | [] => .ok []
    | c :: rest =>
      if c == ' ' || c == '\t' || c == '\n' then tokensUpTo more rest
      else if c.isDigit then
        let (n, rest) := numberAt text
        (tokensUpTo more rest).map (.number n :: ·)
      else if Word.isNameStart c then
        let lexeme := text.takeWhile Word.isNameChar
        (tokensUpTo more (text.drop lexeme.length)).map (.name lexeme :: ·)
      else
        match signs.find? fun s => s.toList.isPrefixOf text with
        | none => .ok [.sign (String.singleton c)]
        | some s => (tokensUpTo more (text.drop s.length)).map (.sign s :: ·)

def ofBool (b : Bool) : Int := if b then 1 else 0

/-- The value of a sign between two numbers. -/
def operate (sign : String) (a b : Int) : Except Failure Int :=
  match sign with
  | "+" => .ok (wrap (a + b))
  | "-" => .ok (wrap (a - b))
  | "*" => .ok (wrap (a * b))
  | "/" => if b == 0 then .error .divisionByZero else .ok (wrap (a.tdiv b))
  | "%" => if b == 0 then .error .divisionByZero else .ok (wrap (a.tmod b))
  | "<<" => .ok (wrap (a * Nat.pow 2 (b.toNat % 64)))
  | ">>" => .ok (a / Nat.pow 2 (b.toNat % 64))
  | "<" => .ok (ofBool (a < b))
  | ">" => .ok (ofBool (b < a))
  | "<=" => .ok (ofBool (a ≤ b))
  | ">=" => .ok (ofBool (b ≤ a))
  | "==" => .ok (ofBool (a == b))
  | "!=" => .ok (ofBool (a != b))
  | "&" => .ok (Int64.ofInt a &&& Int64.ofInt b).toInt
  | "^" => .ok (Int64.ofInt a ^^^ Int64.ofInt b).toInt
  | "|" => .ok (Int64.ofInt a ||| Int64.ofInt b).toInt
  | "&&" => .ok (ofBool (a != 0 && b != 0))
  | "||" => .ok (ofBool (a != 0 || b != 0))
  | _ => .error .malformed

/-- The signs between two numbers, by how loosely they bind. -/
def levels : List (List String) :=
  [["||"], ["&&"], ["|"], ["^"], ["&"], ["==", "!="], ["<=", ">=", "<", ">"], ["<<", ">>"],
    ["+", "-"], ["*", "/", "%"]]

def assigning? (sign : String) : Option String :=
  if ["+=", "-=", "*=", "/=", "%=", "&=", "|=", "^=", "<<=", ">>="].contains sign then
    some (sign.dropEnd 1).toString
  else none

def valueOf (vars : Variables) (name : Octets) : Except Failure Int :=
  let text := (vars.lookup name).getD []
  match integer? text with
  | some n => .ok (wrap n)
  | none => .error (.illegalNumber text)

/-- What evaluating gives: the value, the variables and the tokens that are left. -/
abbrev Result := Except Failure (Int × Variables × List Token)

mutual

def expression : Nat → Variables → List Token → Result
  | 0, _, _ => .error .malformed
  | fuel + 1, vars, tokens =>
    match tokens with
    | .name x :: .sign "=" :: rest => do
      let (n, vars, rest) ← expression fuel vars rest
      .ok (n, (x, text n) :: vars, rest)
    | .name x :: .sign s :: rest =>
      match assigning? s with
      | some op => do
        let old ← valueOf vars x
        let (n, vars, rest) ← expression fuel vars rest
        let n ← operate op old n
        .ok (n, (x, text n) :: vars, rest)
      | none => conditional fuel vars tokens
    | _ => conditional fuel vars tokens

/-- The value of an expression without assignments, which may choose between two. -/
def conditional : Nat → Variables → List Token → Result
  | 0, _, _ => .error .malformed
  | fuel + 1, vars, tokens => do
    let (n, vars, rest) ← binary fuel levels vars tokens
    match rest with
    | .sign "?" :: rest => do
      let (a, varsA, rest) ← expression fuel vars rest
      match rest with
      | .sign ":" :: rest => do
        let (b, varsB, rest) ← conditional fuel vars rest
        .ok (if n != 0 then (a, varsA, rest) else (b, varsB, rest))
      | _ => .error .malformed
    | rest => .ok (n, vars, rest)

/-- The value of an expression whose signs bind as tightly as some levels. -/
def binary : Nat → List (List String) → Variables → List Token → Result
  | 0, _, _, _ => .error .malformed
  | fuel + 1, [], vars, tokens => unary fuel vars tokens
  | fuel + 1, level :: tighter, vars, tokens => do
    let (n, vars, rest) ← binary fuel tighter vars tokens
    further fuel level tighter n vars rest

def further : Nat → List String → List (List String) → Int → Variables → List Token → Result
  | 0, _, _, n, vars, tokens => .ok (n, vars, tokens)
  | fuel + 1, level, tighter, n, vars, tokens =>
    match tokens with
    | .sign s :: rest =>
      if level.contains s then do
        let (m, vars, rest) ← binary fuel tighter vars rest
        let n ← operate s n m
        further fuel level tighter n vars rest
      else .ok (n, vars, tokens)
    | _ => .ok (n, vars, tokens)

/-- The value of a number, a variable, an expression in parentheses, or one of these behind a
sign. -/
def unary : Nat → Variables → List Token → Result
  | 0, _, _ => .error .malformed
  | fuel + 1, vars, tokens =>
    match tokens with
    | .number n :: rest => .ok (wrap n, vars, rest)
    | .name x :: rest => do
      let n ← valueOf vars x
      .ok (n, vars, rest)
    | .sign "(" :: rest => do
      let (n, vars, rest) ← expression fuel vars rest
      match rest with
      | .sign ")" :: rest => .ok (n, vars, rest)
      | _ => .error .malformed
    | .sign s :: rest => do
      let (n, vars, rest) ← unary fuel vars rest
      match s with
      | "-" => .ok (wrap (-n), vars, rest)
      | "+" => .ok (n, vars, rest)
      | "!" => .ok (ofBool (n == 0), vars, rest)
      | "~" => .ok (-n - 1, vars, rest)
      | _ => .error .malformed
    | [] => .error .malformed

end

/-- The value of a whole text and the variables afterwards. -/
def evaluate (vars : Variables) (expr : Octets) : Except Failure (Int × Variables) := do
  let tokens ← tokensUpTo (expr.length + 1) expr
  match ← expression (20 * (tokens.length + 1)) vars tokens with
  | (n, vars, []) => .ok (n, vars)
  | _ => .error .trailing

def Failure.message (expr : Octets) : Failure → String
  | malformed => "arithmetic expression: expecting primary: " ++ "\"" ++ Octets.toText expr ++ "\""
  | trailing => "arithmetic expression: expecting EOF: " ++ "\"" ++ Octets.toText expr ++ "\""
  | divisionByZero =>
    "arithmetic expression: division by zero: " ++ "\"" ++ Octets.toText expr ++ "\""
  | illegalNumber text => "Illegal number: " ++ Octets.toText text

end Turnery.Shell.Arithmetic
