import Turnery.Proofs.Fault
import Turnery.Proofs.Svg.Runs

/-!
# Positions in the numbers of a command

A pen can keep its numbers in a buffer of seven places and take the end point of a command from it
by position: the first number for a command along an axis, and the last two for any other.
`reads_without_fault` says that this never goes wrong, whatever the path data is: no number is
stored behind the seventh place, no difference of positions falls below zero, and every position
that is read lies among the numbers.

The reasons are that a command takes at least as many numbers as its end point is told by
(`Verb.needed_le_arity`), with the close as the only exception, that no pen ever waits for the
numbers of a close, and that a pen which waits holds fewer numbers than its command takes
(`Pen.Waits`). With one number more there are thus exactly as many.
-/

namespace Turnery.Svg

/-- How many numbers the end point of a command is told by. -/
def Verb.needed : Verb → ℕ
  | horizontal | vertical => 1
  | _ => 2

theorem Verb.needed_le_arity {verb : Verb} (h : verb ≠ .close) : verb.needed ≤ verb.arity := by
  cases verb with
  | close => exact absurd rfl h
  | _ => decide

theorem Verb.arity_le_seven (verb : Verb) : verb.arity ≤ 7 := by
  cases verb <;> decide

namespace PathData

namespace InWords

open Word

/-- A number goes into the next place of a buffer of seven. -/
def push (args : List Float) (value : Float) : Except Fault (List Float) :=
  if args.length < 7 then .ok (args ++ [value]) else .error .outOfRange

/-- The coordinates among the numbers of a command; one along an axis has only one of them. -/
def coordinates (verb : Verb) (args : List Float) : Except Fault (Option Float × Option Float) :=
  match verb with
  | .horizontal => do return (some (← entry args 0), none)
  | .vertical => do return (none, some (← entry args 0))
  | _ => do
    let x ← entry args (← difference args.length 2)
    let y ← entry args (← difference args.length 1)
    return (some x, some y)

def target (command : Command) (args : List Float) (position : Point Float) :
    Except Fault (Point Float) := do
  let (x, y) ← coordinates command.verb args
  return if command.relative then ⟨position.x + x.getD 0, position.y + y.getD 0⟩
    else ⟨x.getD position.x, y.getD position.y⟩

def takeNumber (pen : Pen) (value : Float) : Except Fault Pen :=
  match pen.command with
  | none => return pen
  | some command => do
    let args ← push pen.args value
    if args.length < command.verb.arity then return { pen with args := args }
    let point ← target command args pen.position
    return { pen with args := [] }.carryOut command point

def step (pen : Pen) : Token → Except Fault Pen
  | .command command => return pen.takeCommand command
  | .number value => takeNumber pen value

/-- The linework of path data, read by positions. -/
def linework (text : List Char) : Except Fault (Linework Float) := do
  let pen ← (tokens text).foldlM step .start
  return pen.finish

variable {command : Command} {args : List Float}

theorem exists_first (h : args.length = 1) : ∃ x, entry args 0 = .ok x ∧ args.reverse = [x] := by
  obtain ⟨x, rfl⟩ := List.length_eq_one_iff.1 h
  exact ⟨x, rfl, rfl⟩

theorem exists_last_two (h : 2 ≤ args.length) :
    ∃ x y others, entry args (args.length - 2) = .ok x ∧ entry args (args.length - 1) = .ok y ∧
      args.reverse = y :: x :: others := by
  match hargs : args.reverse with
  | [] | [_] =>
    have hlength := congrArg List.length hargs
    rw [List.length_reverse] at hlength
    simp only [List.length_nil, List.length_singleton] at hlength
    omega
  | y :: x :: others =>
    obtain rfl : args = others.reverse ++ [x, y] := by simpa using congrArg List.reverse hargs
    exact ⟨x, y, others, by simp [entry], by simp [entry], rfl⟩

/-- With as many numbers as a command takes, its end point is found by position. -/
theorem exists_target (hclose : command.verb ≠ .close) (h : args.length = command.verb.arity)
    (position : Point Float) :
    ∃ point, target command args position = .ok point ∧
      Pen.target? command args position = some point := by
  obtain ⟨verb, relative⟩ := command
  cases verb with
  | close => exact absurd rfl hclose
  | horizontal | vertical =>
    obtain ⟨x, hfirst, hreverse⟩ := exists_first h
    simp only [target, coordinates, hfirst, Pen.target?, hreverse, bind, Except.bind]
    exact ⟨_, rfl, rfl⟩
  | _ =>
    have htwo : 2 ≤ args.length := h ▸ Verb.needed_le_arity hclose
    have hone : 1 ≤ args.length := Nat.le_of_succ_le htwo
    obtain ⟨x, y, others, hx, hy, hreverse⟩ := exists_last_two htwo
    simp only [target, coordinates, difference_eq_ok htwo, difference_eq_ok hone, hx, hy,
      Pen.target?, hreverse, bind, Except.bind]
    exact ⟨_, rfl, rfl⟩

end InWords

/-- A pen without a command holds no numbers. With one, which is never a close, it holds fewer than
the command takes. -/
structure Pen.Waits (pen : Pen) : Prop where
  args_of_none : pen.command = none → pen.args = []
  args_of_some : ∀ command, pen.command = some command →
    command.verb ≠ .close ∧ pen.args.length < command.verb.arity

namespace Pen

variable {pen : Pen} {command : Command} {value : Float}

theorem waits_start : start.Waits where
  args_of_none _ := rfl
  args_of_some _ h := by cases h

/-- Without numbers every command is waited for that is no close. -/
theorem waits_of_some (hargs : pen.args = []) (hcommand : pen.command = some command)
    (hclose : command.verb ≠ .close) :
    pen.Waits where
  args_of_none _ := hargs
  args_of_some other hother := by
    obtain rfl := Option.some.inj (hcommand.symm.trans hother)
    rw [hargs]
    exact ⟨hclose, Nat.pos_of_ne_zero fun hzero => hclose ((close_iff_arity command).2 hzero)⟩

theorem waits_takeCommand (pen : Pen) (command : Command) : (pen.takeCommand command).Waits := by
  by_cases hclose : command.verb = .close
  · rw [takeCommand, hclose]
    exact ⟨fun _ => rfl, fun _ h => by cases h⟩
  · rw [takeCommand_of_ne_close hclose]
    exact waits_of_some rfl rfl hclose

namespace Waits

theorem length_args_le (h : pen.Waits) : pen.args.length ≤ 7 := by
  cases hcommand : pen.command with
  | none => simp [h.args_of_none hcommand]
  | some command =>
    exact Nat.le_trans (Nat.le_of_lt (h.args_of_some command hcommand).2)
      command.verb.arity_le_seven

theorem length_push_le (h : pen.Waits) (hcommand : pen.command = some command) (value : Float) :
    (pen.args ++ [value]).length ≤ command.verb.arity := by
  rw [List.length_append, List.length_singleton]
  exact (h.args_of_some command hcommand).2

theorem length_push_eq (h : pen.Waits) (hcommand : pen.command = some command)
    (hlong : ¬(pen.args ++ [value]).length < command.verb.arity) :
    (pen.args ++ [value]).length = command.verb.arity :=
  Nat.le_antisymm (h.length_push_le hcommand value) (Nat.le_of_not_lt hlong)

theorem push_eq_ok (h : pen.Waits) (hcommand : pen.command = some command) (value : Float) :
    InWords.push pen.args value = .ok (pen.args ++ [value]) :=
  if_pos (Nat.lt_of_lt_of_le (h.args_of_some command hcommand).2 command.verb.arity_le_seven)

/-- With the last of its numbers a command is carried out. -/
theorem exists_carryOut (h : pen.Waits) (hcommand : pen.command = some command)
    (hlong : ¬(pen.args ++ [value]).length < command.verb.arity) :
    ∃ point, InWords.target command (pen.args ++ [value]) pen.position = .ok point ∧
      target? command (pen.args ++ [value]) pen.position = some point ∧
      pen.takeNumber value = { pen with args := [] }.carryOut command point := by
  obtain ⟨hclose, -⟩ := h.args_of_some command hcommand
  obtain ⟨point, hpoint, hpoint'⟩ :=
    InWords.exists_target hclose (h.length_push_eq hcommand hlong) pen.position
  refine ⟨point, hpoint, hpoint', ?_⟩
  simp only [takeNumber, hcommand, if_neg hlong, hpoint']

/-- A number goes where the pen has a place for it, and the pen waits on. -/
theorem takeNumber_eq (h : pen.Waits) (value : Float) :
    InWords.takeNumber pen value = .ok (pen.takeNumber value) ∧ (pen.takeNumber value).Waits := by
  cases hcommand : pen.command with
  | none =>
    rw [(takeNumber_of_none hcommand value).1, InWords.takeNumber, hcommand]
    exact ⟨rfl, h⟩
  | some command =>
    obtain ⟨hclose, -⟩ := h.args_of_some command hcommand
    have hpush := h.push_eq_ok hcommand value
    by_cases hshort : (pen.args ++ [value]).length < command.verb.arity
    · have hread : InWords.takeNumber pen value = .ok { pen with args := pen.args ++ [value] } := by
        simp only [InWords.takeNumber, hcommand, hpush, if_pos hshort, bind, Except.bind]
        rfl
      rw [hread, (takeNumber_of_lt hcommand hshort).1]
      refine ⟨rfl, fun hnone => ?_, fun other hother => ?_⟩
      · exact absurd (hcommand.symm.trans hnone) (Option.some_ne_none command)
      · obtain rfl := Option.some.inj (hcommand.symm.trans hother)
        exact ⟨hclose, hshort⟩
    · obtain ⟨point, hpoint, -, htaken⟩ := h.exists_carryOut hcommand hshort
      have hread : InWords.takeNumber pen value =
          .ok ({ pen with args := [] }.carryOut command point) := by
        simp only [InWords.takeNumber, hcommand, hpush, if_neg hshort, hpoint, bind, Except.bind]
        rfl
      rw [hread, htaken]
      refine ⟨rfl, waits_of_some (args_carryOut _ _ _) ?_ (repeated_ne_close hclose)⟩
      exact command_carryOut { pen with args := [] } hcommand point

/-- One token more is read without a fault, and the pen waits on. -/
theorem step_eq (h : pen.Waits) (token : Token) :
    InWords.step pen token = .ok (pen.step token) ∧ (pen.step token).Waits := by
  cases token with
  | command command => exact ⟨rfl, waits_takeCommand pen command⟩
  | number value => exact h.takeNumber_eq value

/-- So is any run of tokens. -/
theorem foldlM_step_eq (h : pen.Waits) (read : List Token) :
    read.foldlM InWords.step pen = .ok (read.foldl step pen) ∧ (read.foldl step pen).Waits := by
  induction read generalizing pen with
  | nil => exact ⟨rfl, h⟩
  | cons token rest ih =>
    obtain ⟨hstep, hwaits⟩ := h.step_eq token
    rw [List.foldlM_cons, hstep]
    exact ih hwaits

end Waits

end Pen

/-- Reading by positions meets no fault and finds the linework. Behind any tokens the pen holds at
most seven numbers, and its command, if it has one, takes as many as its end point is told by or
more. With one number more there are seven at most. Where they are not too few, so that the end
point is asked for, they are exactly as many as the command takes, and the end point is found. -/
theorem reads_without_fault :
    (∀ text, InWords.linework text = .ok (linework text)) ∧
      ∀ read : List Token,
        let pen := read.foldl Pen.step .start
        read.foldlM InWords.step .start = .ok pen ∧ pen.args.length ≤ 7 ∧
          ∀ command value, pen.command = some command →
            let args := pen.args ++ [value]
            command.verb.needed ≤ command.verb.arity ∧ args.length ≤ 7 ∧
              (¬args.length < command.verb.arity →
                args.length = command.verb.arity ∧
                  ∃ point, InWords.target command args pen.position = .ok point ∧
                    Pen.target? command args pen.position = some point ∧
                    pen.takeNumber value = { pen with args := [] }.carryOut command point) := by
  refine ⟨fun text => ?_, fun read => ?_⟩
  · obtain ⟨hread, -⟩ := Pen.waits_start.foldlM_step_eq (tokens text)
    rw [InWords.linework, hread]
    rfl
  · intro pen
    obtain ⟨hread, hwaits⟩ : _ ∧ pen.Waits := Pen.waits_start.foldlM_step_eq read
    refine ⟨hread, hwaits.length_args_le, fun command value hcommand => ?_⟩
    have hneeded := Verb.needed_le_arity (hwaits.args_of_some command hcommand).1
    have hroom := Nat.le_trans (hwaits.length_push_le hcommand value) command.verb.arity_le_seven
    exact ⟨hneeded, hroom, fun hlong =>
      ⟨hwaits.length_push_eq hcommand hlong, hwaits.exists_carryOut hcommand hlong⟩⟩

/-- The seventh number of a relative arc. -/
theorem reads_without_fault_arc :
    let read : List Token :=
      [.command ⟨.moveTo, false⟩, .number 1, .number 2, .command ⟨.arc, true⟩, .number 5,
      .number 5, .number 0, .number 0, .number 1, .number 7]
    let pen := read.foldl Pen.step .start
    let args := pen.args ++ [8]
    (pen.command = some ⟨.arc, true⟩ ∧ ¬args.length < Verb.arc.arity) ∧
      read.foldlM InWords.step .start = .ok pen ∧ args.length = 7 ∧
      (∃ point, InWords.target ⟨.arc, true⟩ args pen.position = .ok point ∧
        pen.takeNumber 8 = { pen with args := [] }.carryOut ⟨.arc, true⟩ point) ∧
      InWords.linework "M1 2a5 5 0 0 1 7 8l1 1".toList = .ok ⟨[⟨[⟨1, 2⟩, ⟨9, 11⟩]⟩]⟩ := by
  intro read pen args
  have hcommand : pen.command = some ⟨.arc, true⟩ := rfl
  have hlong : ¬args.length < Verb.arc.arity := by decide
  obtain ⟨hlinework, hevery⟩ := reads_without_fault
  obtain ⟨hread, -, hcalls⟩ := hevery read
  obtain ⟨-, -, hcall⟩ := hcalls ⟨.arc, true⟩ 8 hcommand
  obtain ⟨hlength, point, hpoint, -, htaken⟩ := hcall hlong
  have hdrawn : linework "M1 2a5 5 0 0 1 7 8l1 1".toList = ⟨[⟨[⟨1, 2⟩, ⟨9, 11⟩]⟩]⟩ := by
    decide +kernel
  exact ⟨⟨hcommand, hlong⟩, hread, hlength, ⟨point, hpoint, htaken⟩,
    (hlinework _).trans (congrArg _ hdrawn)⟩

end PathData

end Turnery.Svg
