import Turnery.Geometry.Linework
import Turnery.Number.Literal
import Turnery.Text.Decimal

/-!
# Path data

Path data drives a pen by lettered commands with numbers behind them. A move-to starts a polyline
and a line-to continues it; all other commands are not drawn, but the pen follows them. A command is
carried out each time that as many numbers have come as it takes.
-/

namespace Turnery.Svg

inductive Verb where
  | moveTo
  | lineTo
  | horizontal
  | vertical
  | curve
  | smoothCurve
  | quadratic
  | smoothQuadratic
  | arc
  | close
  deriving DecidableEq, Repr

/-- A command; the numbers of a relative one count from the pen. -/
structure Command where
  verb : Verb
  relative : Bool
  deriving DecidableEq, Repr

namespace Command

/-- The command of a letter; a lower-case letter makes it relative. -/
def ofLetter? : Char → Option Command
  | 'M' => some ⟨.moveTo, false⟩
  | 'm' => some ⟨.moveTo, true⟩
  | 'L' => some ⟨.lineTo, false⟩
  | 'l' => some ⟨.lineTo, true⟩
  | 'H' => some ⟨.horizontal, false⟩
  | 'h' => some ⟨.horizontal, true⟩
  | 'V' => some ⟨.vertical, false⟩
  | 'v' => some ⟨.vertical, true⟩
  | 'C' => some ⟨.curve, false⟩
  | 'c' => some ⟨.curve, true⟩
  | 'S' => some ⟨.smoothCurve, false⟩
  | 's' => some ⟨.smoothCurve, true⟩
  | 'Q' => some ⟨.quadratic, false⟩
  | 'q' => some ⟨.quadratic, true⟩
  | 'T' => some ⟨.smoothQuadratic, false⟩
  | 't' => some ⟨.smoothQuadratic, true⟩
  | 'A' => some ⟨.arc, false⟩
  | 'a' => some ⟨.arc, true⟩
  | 'Z' => some ⟨.close, false⟩
  | 'z' => some ⟨.close, true⟩
  | _ => none

end Command

/-- How many numbers a command takes each time. -/
def Verb.arity : Verb → Nat
  | horizontal | vertical => 1
  | moveTo | lineTo | smoothQuadratic => 2
  | smoothCurve | quadratic => 4
  | curve => 6
  | arc => 7
  | close => 0

/-- A piece of path data. -/
inductive Token where
  | command (command : Command)
  | number (value : Float)

namespace PathData

def takeSign : List Char → List Char × List Char
  | '-' :: rest => (['-'], rest)
  | '+' :: rest => (['+'], rest)
  | text => ([], text)

/-- The exponent at the front of a text, and the rest; nothing if there is no complete one. -/
def takeExponent : List Char → List Char × List Char
  | [] => ([], [])
  | e :: rest =>
    let (sign, afterSign) := takeSign rest
    let (ds, afterDigits) := Text.takeDigits afterSign
    if (e == 'e' || e == 'E') && !ds.isEmpty then (e :: sign ++ ds, afterDigits)
    else ([], e :: rest)

theorem takeSign_length (text : List Char) : (takeSign text).2.length ≤ text.length := by
  unfold takeSign
  split <;> simp

theorem takeExponent_length (text : List Char) : (takeExponent text).2.length ≤ text.length := by
  cases text with
  | nil => simp [takeExponent]
  | cons e rest =>
    have hsign := takeSign_length rest
    have hdigits := congrArg List.length (Text.takeDigits_append (takeSign rest).2)
    rw [List.length_append] at hdigits
    simp only [takeExponent]
    split <;> simp only [List.length_cons] <;> omega

/-- The number at the front of a text, and the rest. -/
def takeNumber? (text : List Char) : Option (List Char × List Char) :=
  (Text.takeDecimal? text).map fun (lexeme, rest) =>
    let (exponent, rest) := takeExponent rest
    (lexeme ++ exponent, rest)

theorem takeNumber?_length {text lexeme rest : List Char}
    (h : takeNumber? text = some (lexeme, rest)) :
    rest.length < text.length := by
  obtain ⟨⟨l, r⟩, hl, heq⟩ := Option.map_eq_some_iff.1 h
  simp only [Prod.mk.injEq] at heq
  have hshort := Text.takeDecimal?_length hl
  have hexp := takeExponent_length r
  rw [heq.2] at hexp
  omega

/-- The tokens of path data. A lexeme that is no numeral gives none, and any other text separates
tokens. -/
def tokens : List Char → List Token
  | [] => []
  | c :: rest =>
    match Command.ofLetter? c with
    | some command => .command command :: tokens rest
    | none =>
      match h : takeNumber? (c :: rest) with
      | some (lexeme, rest') =>
        have : rest'.length < (c :: rest).length := takeNumber?_length h
        ((Number.float? lexeme).map Token.number).toList ++ tokens rest'
      | none => tokens rest
termination_by text => text.length
decreasing_by all_goals first | assumption | exact Nat.lt_succ_self _

/-- The pen: what it has drawn, where it is, and what it is about to do. -/
structure Pen where
  /-- The polylines that are complete. -/
  drawn : Linework Float
  /-- The polyline being drawn. -/
  current : List (Point Float)
  position : Point Float
  subpathStart : Point Float
  command : Option Command
  /-- The numbers since the command was last carried out. -/
  args : List Float

namespace Pen

/-- A pen at the origin that has drawn nothing. -/
def start : Pen := ⟨.empty, [], .origin, .origin, none, []⟩

/-- The end point of a command: the last two of its numbers, or the one number of a command along an
axis. -/
def target? (command : Command) (args : List Float) (position : Point Float) :
    Option (Point Float) :=
  let resolve (x y : Option Float) : Point Float :=
    if command.relative then ⟨position.x + x.getD 0, position.y + y.getD 0⟩
    else ⟨x.getD position.x, y.getD position.y⟩
  match command.verb, args.reverse with
  | .horizontal, x :: _ => some (resolve (some x) none)
  | .vertical, y :: _ => some (resolve none (some y))
  | .horizontal, [] => none
  | .vertical, [] => none
  | _, y :: x :: _ => some (resolve (some x) (some y))
  | _, _ => none

/-- A letter discards incomplete numbers. A close takes the pen back without drawing. -/
def takeCommand (pen : Pen) (command : Command) : Pen :=
  match command.verb with
  | .close => { pen with args := [], position := pen.subpathStart, command := none }
  | _ => { pen with args := [], command := some command }

/-- Carries a command out. The pairs after that of a move-to are line-tos. -/
def carryOut (pen : Pen) (command : Command) (target : Point Float) : Pen :=
  match command.verb with
  | .moveTo =>
    { pen with
      drawn := pen.drawn.push ⟨pen.current⟩, current := [target], position := target
      subpathStart := target, command := some { command with verb := .lineTo } }
  | .lineTo => { pen with current := pen.current ++ [target], position := target }
  | _ => { pen with position := target }

/-- A number completes the numbers of the command or waits for others; without a command it is
skipped. -/
def takeNumber (pen : Pen) (value : Float) : Pen :=
  match pen.command with
  | none => pen
  | some command =>
    let args := pen.args ++ [value]
    if args.length < command.verb.arity then { pen with args := args }
    else
      match target? command args pen.position with
      | some target => { pen with args := [] }.carryOut command target
      | none => { pen with args := [] }

def step (pen : Pen) : Token → Pen
  | .command command => pen.takeCommand command
  | .number value => pen.takeNumber value

def finish (pen : Pen) : Linework Float :=
  pen.drawn.push ⟨pen.current⟩

end Pen

/-- The linework of path data. -/
def linework (text : List Char) : Linework Float :=
  ((tokens text).foldl Pen.step Pen.start).finish

end PathData

end Turnery.Svg
