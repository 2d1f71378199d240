import Turnery.Proofs.Svg.Strokes

/-!
# Path data by runs

Path data can be read without a pen: a run is a letter with the numbers up to the next letter, its
groups are as many numbers each time as the command takes, and the place of the pen is told by the
groups before. `strokes_eq_reading` says that the pen carries out this reading: whatever it has
waiting for a command is the start of a group.
-/

namespace Turnery.Svg

/-- The command of the groups behind the first of a run: the pairs behind that of a move-to are
line-tos. -/
def Command.repeated (command : Command) : Command :=
  if command.verb = .moveTo then { command with verb := .lineTo } else command

namespace PathData

/-- A letter with the numbers up to the next letter. -/
structure Run where
  command : Command
  numbers : List Float

/-- A command with all its numbers. -/
structure Group where
  command : Command
  args : List Float

/-- The numbers in front of the first letter. -/
def leadingNumbers : List Token → List Float
  | .number value :: rest => value :: leadingNumbers rest
  | _ => []

/-- The runs of some tokens; numbers in front of the first letter are in none. -/
def runs : List Token → List Run
  | [] => []
  | .command command :: rest => ⟨command, leadingNumbers rest⟩ :: runs rest
  | .number _ :: rest => runs rest

/-- A list cut into pieces of a length; what is left over at the end is in none. -/
def pieces (length : Nat) (numbers : List Float) : List (List Float) :=
  (List.range (numbers.length / length)).map fun place =>
    (numbers.drop (place * length)).take length

/-- The groups of a run. A close is a group of its own and leaves its numbers out. -/
def Run.groups (run : Run) : List Group :=
  if run.command.verb = .close then [⟨run.command, []⟩]
  else
    match pieces run.command.verb.arity run.numbers with
    | [] => []
    | first :: others => ⟨run.command, first⟩ :: others.map (Group.mk run.command.repeated)

/-- Where a group takes a pen from a place. -/
def Group.target (group : Group) (place : Point Float) : Point Float :=
  (Pen.target? group.command group.args place).getD place

mutual

/-- Where the pen is behind some groups, the latest first: at the end of the latest, or behind a
close at the point of the latest move-to. -/
def penBehind : List Group → Point Float
  | [] => .origin
  | group :: earlier =>
    if group.command.verb = .close then startBehind earlier else group.target (penBehind earlier)

/-- The point of the latest move-to of some groups, the latest first. -/
def startBehind : List Group → Point Float
  | [] => .origin
  | group :: earlier =>
    if group.command.verb = .moveTo then group.target (penBehind earlier) else startBehind earlier

end

/-- The strokes of groups behind some earlier ones, the latest of those first. -/
def strokesOf (earlier : List Group) : List Group → List Stroke
  | [] => []
  | group :: rest =>
    ⟨group.command, group.args, penBehind earlier, penBehind (group :: earlier)⟩ ::
      strokesOf (group :: earlier) rest

/-- What path data says, read by runs and groups. -/
def reading (text : List Char) : List Stroke :=
  strokesOf [] ((runs (tokens text)).flatMap Run.groups)

theorem pieces_of_lt {length : Nat} {numbers : List Float} (h : numbers.length < length) :
    pieces length numbers = [] := by
  rw [pieces, Nat.div_eq_of_lt h]
  rfl

theorem pieces_append {first : List Float} (rest : List Float) (h : 0 < first.length) :
    pieces first.length (first ++ rest) = first :: pieces first.length rest := by
  have hplace (place : Nat) : (first ++ rest).drop ((place + 1) * first.length) =
      rest.drop (place * first.length) := by
    rw [Nat.succ_mul, Nat.add_comm, ← List.drop_drop, List.drop_left]
  rw [pieces, List.length_append, Nat.add_div_left _ h, List.range_succ_eq_map, List.map_cons,
    List.map_map]
  simp only [Function.comp_def, Nat.succ_eq_add_one, hplace, Nat.zero_mul, List.drop_zero,
    List.take_left, pieces]

theorem groups_close {command : Command} (h : command.verb = .close) (numbers : List Float) :
    Run.groups ⟨command, numbers⟩ = [⟨command, []⟩] :=
  if_pos h

theorem groups_of_lt {command : Command} {numbers : List Float} (hclose : command.verb ≠ .close)
    (h : numbers.length < command.verb.arity) : Run.groups ⟨command, numbers⟩ = [] := by
  rw [Run.groups, if_neg hclose, pieces_of_lt h]

/-- The command that is repeated takes as many numbers and is repeated by itself. -/
theorem arity_repeated (command : Command) : command.repeated.verb.arity = command.verb.arity := by
  obtain ⟨verb, relative⟩ := command
  cases verb <;> rfl

theorem repeated_repeated (command : Command) : command.repeated.repeated = command.repeated := by
  obtain ⟨verb, relative⟩ := command
  cases verb <;> rfl

theorem close_iff_arity (command : Command) : command.verb = .close ↔ command.verb.arity = 0 := by
  cases command.verb <;> decide

theorem repeated_ne_close {command : Command} (h : command.verb ≠ .close) :
    command.repeated.verb ≠ .close := by
  rwa [Ne, close_iff_arity, arity_repeated, ← close_iff_arity]

/-- A complete group is split off a run. -/
theorem groups_append {command : Command} {first : List Float} (rest : List Float)
    (hclose : command.verb ≠ .close) (h : first.length = command.verb.arity) :
    Run.groups ⟨command, first ++ rest⟩ = ⟨command, first⟩ ::
      Run.groups ⟨command.repeated, rest⟩ := by
  have hpos : 0 < first.length := by
    rw [h]
    exact Nat.pos_of_ne_zero fun hzero => hclose ((close_iff_arity command).2 hzero)
  rw [Run.groups, Run.groups, if_neg hclose, if_neg (repeated_ne_close hclose), arity_repeated,
    repeated_repeated, ← h, pieces_append rest hpos]
  dsimp only
  cases pieces first.length rest with
  | nil => rfl
  | cons second others => rfl

namespace Pen

/-- A pen is where some groups have taken it, the latest first, and waits for the numbers of its
command. -/
structure Stands (pen : Pen) (past : List Group) : Prop where
  position : pen.position = penBehind past
  subpathStart : pen.subpathStart = startBehind past
  isOpen : ∀ command, pen.command = some command →
    command.verb ≠ .close ∧ pen.args.length < command.verb.arity

/-- The groups of the command that a pen has, with the numbers it holds and those that come before
the next letter. -/
def pending (pen : Pen) (read : List Token) : List Group :=
  (pen.command.map fun command => Run.groups ⟨command, pen.args ++ leadingNumbers read⟩).getD []

variable {pen : Pen} {past : List Group} {command : Command}

theorem stands_start : Stands start [] where
  position := by simp [start, penBehind]
  subpathStart := by simp [start, startBehind]
  isOpen command h := by cases h

/-- In front of a letter, or at the end, the numbers that a pen holds are discarded. -/
theorem Stands.pending_eq_nil (h : pen.Stands past) {read : List Token}
    (hread : leadingNumbers read = []) :
    pen.pending read = [] := by
  unfold pending
  cases hcommand : pen.command with
  | none => rfl
  | some command =>
    obtain ⟨hclose, hshort⟩ := h.isOpen command hcommand
    rw [hread, List.append_nil]
    exact groups_of_lt hclose hshort

theorem Stands.takeClose (h : pen.Stands past) (hclose : command.verb = .close) :
    (pen.takeCommand command).Stands (⟨command, []⟩ :: past) := by
  rw [takeCommand, hclose]
  refine ⟨?_, ?_, fun _ hnone => by cases hnone⟩
  · rw [penBehind, if_pos hclose]
    exact h.subpathStart
  · rw [startBehind, if_neg (by rw [hclose]; decide)]
    exact h.subpathStart

theorem takeCommand_of_ne_close (hclose : command.verb ≠ .close) :
    pen.takeCommand command = { pen with args := [], command := some command } := by
  unfold takeCommand
  split
  · exact absurd ‹_› hclose
  · rfl

theorem Stands.takeLetter (h : pen.Stands past) (hclose : command.verb ≠ .close) :
    (pen.takeCommand command).Stands past := by
  rw [takeCommand_of_ne_close hclose]
  refine ⟨h.position, h.subpathStart, ?_⟩
  rintro _ ⟨⟩
  exact ⟨hclose, Nat.pos_of_ne_zero fun hzero => hclose ((close_iff_arity command).2 hzero)⟩

theorem Stands.collect (h : pen.Stands past) (hcommand : pen.command = some command)
    {args : List Float} (hshort : args.length < command.verb.arity) :
    { pen with args := args }.Stands past := by
  refine ⟨h.position, h.subpathStart, fun other hother => ?_⟩
  obtain rfl := Option.some.inj (hcommand.symm.trans hother)
  exact ⟨(h.isOpen command hcommand).1, hshort⟩

/-- A command with all its numbers leads somewhere. -/
theorem exists_target? {args : List Float} (hclose : command.verb ≠ .close)
    (h : args.length = command.verb.arity) (position : Point Float) :
    ∃ target, target? command args position = some target := by
  obtain ⟨verb, relative⟩ := command
  obtain ⟨reversed, rfl⟩ : ∃ reversed : List Float, args = reversed.reverse :=
    ⟨_, args.reverse_reverse.symm⟩
  rw [List.length_reverse] at h
  rw [target?, List.reverse_reverse]
  match reversed, verb with
  | _, .close => exact absurd rfl hclose
  | _ :: _, .horizontal | _ :: _, .vertical => exact ⟨_, rfl⟩
  | _ :: _ :: _, .moveTo | _ :: _ :: _, .lineTo | _ :: _ :: _, .curve | _ :: _ :: _, .smoothCurve
  | _ :: _ :: _, .quadratic | _ :: _ :: _, .smoothQuadratic | _ :: _ :: _, .arc => exact ⟨_, rfl⟩

theorem position_carryOut (pen : Pen) (command : Command) (target : Point Float) :
    (pen.carryOut command target).position = target := by
  obtain ⟨verb, relative⟩ := command
  cases verb <;> rfl

theorem subpathStart_carryOut (pen : Pen) (command : Command) (target : Point Float) :
    (pen.carryOut command target).subpathStart = if command.verb = .moveTo then target
      else pen.subpathStart := by
  obtain ⟨verb, relative⟩ := command
  cases verb <;> rfl

theorem args_carryOut (pen : Pen) (command : Command) (target : Point Float) :
    (pen.carryOut command target).args = pen.args := by
  obtain ⟨verb, relative⟩ := command
  cases verb <;> rfl

/-- The pairs behind that of a move-to are waited for as line-tos. -/
theorem command_carryOut (pen : Pen) (hcommand : pen.command = some command)
    (target : Point Float) :
    (pen.carryOut command target).command = some command.repeated := by
  obtain ⟨verb, relative⟩ := command
  cases verb with
  | moveTo => rfl
  | _ => exact hcommand

/-- Carrying a command out leaves the pen at the end of its group. -/
theorem Stands.carryOut (h : pen.Stands past) (hcommand : pen.command = some command)
    {args : List Float} {target : Point Float}
    (htarget : target? command args pen.position = some target) :
    ({ pen with args := [] }.carryOut command target).Stands (⟨command, args⟩ :: past) := by
  obtain ⟨hclose, -⟩ := h.isOpen command hcommand
  have hend : target = Group.target ⟨command, args⟩ (penBehind past) := by
    rw [Group.target, ← h.position, htarget]
    rfl
  refine ⟨?_, ?_, fun other hother => ?_⟩
  · rw [position_carryOut, penBehind, if_neg hclose, hend]
  · rw [subpathStart_carryOut, startBehind, h.subpathStart, hend]
  · rw [command_carryOut { pen with args := [] } hcommand, Option.some.injEq] at hother
    have hrepeated := repeated_ne_close hclose
    rw [args_carryOut, ← hother]
    exact ⟨hrepeated, Nat.pos_of_ne_zero fun hzero => hrepeated ((close_iff_arity _).2 hzero)⟩

/-- Without a command a number is skipped. -/
theorem takeNumber_of_none (hcommand : pen.command = none) (value : Float) :
    pen.takeNumber value = pen ∧ pen.stroke? (.number value) = none := by
  simp only [takeNumber, stroke?, hcommand, Option.bind_none, and_self]

theorem takeNumber_of_lt (hcommand : pen.command = some command) {value : Float}
    (hshort : (pen.args ++ [value]).length < command.verb.arity) :
    pen.takeNumber value = { pen with args := pen.args ++ [value] } ∧
      pen.stroke? (.number value) = none := by
  simp only [takeNumber, stroke?, hcommand, Option.bind_some, if_pos hshort, and_self]

theorem length_of_not_lt (h : pen.Stands past) (hcommand : pen.command = some command)
    {value : Float} (hlong : ¬(pen.args ++ [value]).length < command.verb.arity) :
    (pen.args ++ [value]).length = command.verb.arity := by
  obtain ⟨-, hshort⟩ := h.isOpen command hcommand
  rw [List.length_append, List.length_singleton] at hlong ⊢
  omega

/-- With the last number of a group the pen carries the group out. -/
theorem Stands.complete (h : pen.Stands past) (hcommand : pen.command = some command)
    {value : Float} (hlong : ¬(pen.args ++ [value]).length < command.verb.arity) :
    pen.stroke? (.number value) = some ⟨command, pen.args ++ [value], penBehind past,
        penBehind (⟨command, pen.args ++ [value]⟩ :: past)⟩ ∧
      (pen.takeNumber value).Stands (⟨command, pen.args ++ [value]⟩ :: past) ∧
      (pen.takeNumber value).command = some command.repeated ∧
        (pen.takeNumber value).args = [] := by
  obtain ⟨hclose, -⟩ := h.isOpen command hcommand
  obtain ⟨target, htarget⟩ := exists_target? hclose (length_of_not_lt h hcommand hlong) pen.position
  have hstands := h.carryOut hcommand htarget
  have hend : target = penBehind (⟨command, pen.args ++ [value]⟩ :: past) := by
    rw [← hstands.position, position_carryOut]
  have hstep : pen.takeNumber value = { pen with args := [] }.carryOut command target := by
    simp only [takeNumber, hcommand, if_neg hlong, htarget]
  rw [hstep]
  refine ⟨?_, hstands, command_carryOut { pen with args := [] } hcommand target,
    args_carryOut _ _ _⟩
  rw [← hend, ← h.position]
  simp only [stroke?, hcommand, Option.bind_some, if_neg hlong, htarget, Option.map_some]

theorem pending_of_none (hcommand : pen.command = none) (read : List Token) :
    pen.pending read = [] := by
  rw [pending, hcommand]
  rfl

theorem pending_of_some (pen : Pen) (hcommand : pen.command = some command) (read : List Token) :
    pen.pending read = Run.groups ⟨command, pen.args ++ leadingNumbers read⟩ := by
  rw [pending, hcommand]
  rfl

/-- The pen carries out the groups that it has pending, and those of the runs that follow. -/
theorem Stands.strokes_eq (h : pen.Stands past) (read : List Token) :
    pen.strokes read = strokesOf past (pen.pending read ++ (runs read).flatMap Run.groups) := by
  induction read generalizing pen past with
  | nil =>
    rw [h.pending_eq_nil rfl]
    rfl
  | cons token rest ih =>
    rw [strokes]
    cases token with
    | command command =>
      rw [h.pending_eq_nil rfl, List.nil_append, runs, List.flatMap_cons, step]
      by_cases hclose : command.verb = .close
      · have hnone : (pen.takeCommand command).command = none := by rw [takeCommand, hclose]
        rw [ih (h.takeClose hclose), pending_of_none hnone, groups_close hclose, stroke?,
          if_pos hclose, h.position, h.subpathStart, List.singleton_append, strokesOf,
          penBehind.eq_2, if_pos hclose]
        rfl
      · rw [ih (h.takeLetter hclose), stroke?, if_neg hclose, takeCommand_of_ne_close hclose]
        rfl
    | number value =>
      rw [step, runs]
      cases hcommand : pen.command with
      | none =>
        obtain ⟨hstep, hstroke⟩ := takeNumber_of_none hcommand value
        rw [hstep, hstroke, ih h, pending_of_none hcommand, pending_of_none hcommand]
        rfl
      | some command =>
        obtain ⟨hclose, -⟩ := h.isOpen command hcommand
        have hregroup : pen.args ++ leadingNumbers (.number value :: rest) =
            pen.args ++ [value] ++ leadingNumbers rest := by
          rw [leadingNumbers, List.append_assoc, List.singleton_append]
        rw [pending_of_some _ hcommand, hregroup]
        by_cases hshort : (pen.args ++ [value]).length < command.verb.arity
        · -- The number joins those that wait.
          obtain ⟨hstep, hstroke⟩ := takeNumber_of_lt hcommand hshort
          rw [hstep, hstroke, ih (h.collect hcommand hshort),
            pending_of_some { pen with args := pen.args ++ [value] } hcommand]
          rfl
        · -- The number is the last of a group.
          obtain ⟨hstroke, hstands, hnext, hargs⟩ := h.complete hcommand hshort
          rw [hstroke, ih hstands, pending_of_some _ hnext, hargs,
            groups_append _ hclose (length_of_not_lt h hcommand hshort), List.cons_append,
            strokesOf]
          rfl

end Pen

/-- The strokes of path data are those of its runs, group by group. -/
theorem strokes_eq_reading (text : List Char) : strokes text = reading text :=
  Pen.stands_start.strokes_eq (tokens text)

end PathData

end Turnery.Svg
