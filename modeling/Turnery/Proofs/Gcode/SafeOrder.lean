import Turnery.Proofs.Gcode.Instruction

/-!
# The safe order of a program

A controller carries out the instructions of a program one after the other, and nobody stops it when
a retract or a spindle stop is missing. `SafeOrder` says in which order instructions may stand, each
clause about one instruction and what is around it. `Run` follows a program through the stages of
its work; `Run.safeOrder` takes every clause from it.
-/

namespace Turnery.Gcode

namespace Instruction

/-- The instruction moves the tool. -/
def isMove : Instruction → Bool
  | rapidHeight _ | rapid _ _ | cut _ _ _ => true
  | _ => false

/-- The instruction starts or stops the spindle. -/
def isSpindle : Instruction → Bool
  | spindleOn | spindleOff => true
  | _ => false

def turnsTurret : Instruction → Bool
  | toolSelect _ | toolChange => true
  | _ => false

def spindleAfter (turns : Bool) : Instruction → Bool
  | spindleOn => true
  | spindleOff => false
  | _ => turns

theorem spindleAfter_of_not_isSpindle {turns : Bool} {instruction : Instruction}
    (h : instruction.isSpindle = false) : spindleAfter turns instruction = turns := by
  cases instruction with
  | spindleOn | spindleOff => nomatch h
  | _ => rfl

theorem isSpindle_eq_false_of_isMove {instruction : Instruction} (h : instruction.isMove = true) :
    instruction.isSpindle = false := by
  cases instruction with
  | rapidHeight | rapid | cut => rfl
  | _ => nomatch h

end Instruction

open Instruction

/-- The spindle turns after the instructions; at first it stands still. -/
def spindleTurns (before : List Instruction) : Bool :=
  before.foldl spindleAfter false

/-- The order in which the instructions of a program may stand; `safe` is the text of the safe
height. -/
structure SafeOrder (safe : List Char) (program : List Instruction) : Prop where
  /-- Only remarks stand before the modes. -/
  modes : ∃ remarks units rest, program = remarks ++ .unitMode units :: .absoluteMode :: rest ∧
    ∀ instruction ∈ remarks, instruction = .remark
  /-- The program ends where it says so, and nowhere else. -/
  ending : ∃ before, program = before ++ [.endOfProgram] ∧ .endOfProgram ∉ before
  /-- The tool moves while the spindle turns, and the spindle is stopped before anything else is
  done to it. -/
  moves : ∀ before instruction after, program = before ++ instruction :: after →
    instruction.isMove = true →
    spindleTurns before = true ∧ (after.filter isSpindle).head? = some .spindleOff
  /-- The spindle is started when it stands still, and stopped when it turns. -/
  spindle : ∀ before instruction after, program = before ++ instruction :: after →
    instruction.isSpindle = true → spindleTurns before = !spindleAfter false instruction
  /-- The turret turns while the spindle stands still. -/
  turret : ∀ before instruction after, program = before ++ instruction :: after →
    instruction.turnsTurret = true → spindleTurns before = false
  /-- A tool is selected, changed and started in one go. -/
  tools : ∀ before number after, program = before ++ .toolSelect number :: after →
    ∃ speed rest, after = .toolChange :: .spindleSpeed speed :: .spindleOn :: rest
  /-- A rapid move starts at the safe height and is followed by the cuts of one pass and the retract
  to that height. The cuts start where the rapid move ends, and all have one feed. -/
  passes : ∀ before x z after, program = before ++ .rapid x z :: after →
    before.getLast? = some (.rapidHeight safe) ∧
      ∃ feed cuts rest, after = .cut x z feed :: (cuts ++ .rapidHeight safe :: rest) ∧
        ∀ instruction ∈ cuts, ∃ x z, instruction = .cut x z feed
  /-- There are no cuts but those of passes. -/
  cuts : ∀ before x z feed after, program = before ++ .cut x z feed :: after →
    before.getLast? = some (.rapid x z) ∨ ∃ x z, before.getLast? = some (.cut x z feed)

/-- What a program has come to between two instructions. -/
inductive Stage where
  | opening
  | unitsSet
  | stopped
  | selected
  | changed
  | speedSet
  | started
  | raised
  | positioned (x z : List Char)
  | cutting (feed : List Char)
  | ended

def Stage.turns : Stage → Bool
  | started | raised | positioned _ _ | cutting _ => true
  | _ => false

/-- From stage to stage. -/
inductive Step (safe : List Char) : Stage → Instruction → Stage → Prop where
  | remark : Step safe .opening .remark .opening
  | unitMode (units : Units) : Step safe .opening (.unitMode units) .unitsSet
  | absoluteMode : Step safe .unitsSet .absoluteMode .stopped
  | toolSelect (number : List Char) : Step safe .stopped (.toolSelect number) .selected
  | toolChange : Step safe .selected .toolChange .changed
  | spindleSpeed (speed : List Char) : Step safe .changed (.spindleSpeed speed) .speedSet
  | spindleOn : Step safe .speedSet .spindleOn .started
  | approach : Step safe .started (.rapidHeight safe) .raised
  | rapid (x z : List Char) : Step safe .raised (.rapid x z) (.positioned x z)
  | firstCut (x z feed : List Char) : Step safe (.positioned x z) (.cut x z feed) (.cutting feed)
  | nextCut (x z feed : List Char) : Step safe (.cutting feed) (.cut x z feed) (.cutting feed)
  | retract (feed : List Char) : Step safe (.cutting feed) (.rapidHeight safe) .raised
  | spindleOff : Step safe .raised .spindleOff .stopped
  | endOfProgram : Step safe .stopped .endOfProgram .ended

/-- The instructions lead from one stage to another. -/
inductive Run (safe : List Char) : Stage → List Instruction → Stage → Prop where
  | nil (stage : Stage) : Run safe stage [] stage
  | cons {start middle finish : Stage} {instruction : Instruction} {rest : List Instruction}
      (step : Step safe start instruction middle) (run : Run safe middle rest finish) :
      Run safe start (instruction :: rest) finish

variable {safe : List Char} {start middle finish : Stage} {instruction : Instruction}

namespace Step

theorem turns (step : Step safe start instruction finish) :
    finish.turns = spindleAfter start.turns instruction := by
  cases step <;> rfl

theorem turns_of_isMove (step : Step safe start instruction finish)
    (h : instruction.isMove = true) :
    start.turns = true ∧ finish.turns = true := by
  cases step with
  | approach | rapid | firstCut | nextCut | retract => exact ⟨rfl, rfl⟩
  | _ => nomatch h

theorem turns_of_isSpindle (step : Step safe start instruction finish)
    (h : instruction.isSpindle = true) :
    start.turns = !spindleAfter false instruction := by
  cases step with
  | spindleOn | spindleOff => rfl
  | _ => nomatch h

theorem turns_of_turnsTurret (step : Step safe start instruction finish)
    (h : instruction.turnsTurret = true) :
    start.turns = false := by
  cases step with
  | toolSelect | toolChange => rfl
  | _ => nomatch h

theorem eq_spindleOff (step : Step safe start instruction finish) (hturns : start.turns = true)
    (h : instruction.isSpindle = true) : instruction = .spindleOff := by
  cases step with
  | spindleOn => nomatch hturns
  | spindleOff => rfl
  | _ => nomatch h

theorem eq_endOfProgram (step : Step safe start instruction .ended) :
    instruction = .endOfProgram := by
  cases step
  rfl

theorem eq_rapidHeight (step : Step safe start instruction .raised) :
    instruction = .rapidHeight safe := by
  cases step <;> rfl

theorem eq_rapid {x z : List Char} (step : Step safe start instruction (.positioned x z)) :
    instruction = .rapid x z := by
  cases step
  rfl

theorem eq_cut {feed : List Char} (step : Step safe start instruction (.cutting feed)) :
    ∃ x z, instruction = .cut x z feed := by
  cases step <;> exact ⟨_, _, rfl⟩

end Step

namespace Run

theorem single (step : Step safe start instruction finish) : Run safe start [instruction] finish :=
  .cons step (.nil finish)

theorem append {front back : List Instruction} (first : Run safe start front middle)
    (second : Run safe middle back finish) : Run safe start (front ++ back) finish := by
  induction first with
  | nil => exact second
  | cons step _ ih => exact .cons step (ih second)

theorem of_append {front back : List Instruction} (run : Run safe start (front ++ back) finish) :
    ∃ middle, Run safe start front middle ∧ Run safe middle back finish := by
  induction front generalizing start with
  | nil => exact ⟨start, .nil start, run⟩
  | cons head tail ih =>
    cases run with
    | cons step rest =>
      obtain ⟨middle, hfront, hback⟩ := ih rest
      exact ⟨middle, .cons step hfront, hback⟩

/-- The step at which a run carries an instruction out. -/
theorem step_at {before after : List Instruction}
    (run : Run safe start (before ++ instruction :: after) finish) :
    ∃ source target, Run safe start before source ∧ Step safe source instruction target ∧
      Run safe target after finish := by
  obtain ⟨source, hbefore, hrest⟩ := run.of_append
  cases hrest with
  | cons step hafter => exact ⟨source, _, hbefore, step, hafter⟩

/-- A run is at its first stage, or its last instruction has led to where it is. -/
theorem last_step {before : List Instruction} (run : Run safe start before finish) :
    finish = start ∨
      ∃ source instruction, before.getLast? = some instruction ∧
        Step safe source instruction finish := by
  rcases List.eq_nil_or_concat before with rfl | ⟨front, instruction, rfl⟩
  · cases run
    exact .inl rfl
  · rw [List.concat_eq_append] at run ⊢
    obtain ⟨source, target, -, step, hend⟩ := run.step_at
    cases hend
    exact .inr ⟨source, instruction, List.getLast?_concat, step⟩

/-- Nothing is done after the end. -/
theorem eq_nil_of_ended {after : List Instruction} (run : Run safe .ended after finish) :
    after = [] := by
  cases run with
  | nil => rfl
  | cons step _ => cases step

theorem turns {before : List Instruction} (run : Run safe start before finish) :
    finish.turns = before.foldl spindleAfter start.turns := by
  induction run with
  | nil => rfl
  | cons step _ ih => rw [ih, step.turns, List.foldl_cons]

/-- At every stage of a program the instructions so far tell whether the spindle turns. -/
theorem turns_eq_spindleTurns {before : List Instruction} (run : Run safe .opening before finish) :
    finish.turns = spindleTurns before :=
  run.turns

/-- A spindle that turns is stopped before the end, by the next instruction that it gets. -/
theorem head?_filter_isSpindle {after : List Instruction} (run : Run safe start after .ended)
    (hturns : start.turns = true) : (after.filter isSpindle).head? = some .spindleOff := by
  induction after generalizing start with
  | nil =>
    cases run
    exact absurd hturns (by decide)
  | cons instruction rest ih =>
    cases run with
    | cons step hrest =>
      cases hspindle : instruction.isSpindle with
      | false =>
        rw [List.filter_cons_of_neg (by simp [hspindle])]
        exact ih hrest (by rw [step.turns, spindleAfter_of_not_isSpindle hspindle, hturns])
      | true =>
        rw [List.filter_cons_of_pos hspindle, step.eq_spindleOff hturns hspindle]
        rfl

theorem modes {program : List Instruction} (run : Run safe .opening program .ended) :
    ∃ remarks units rest, program = remarks ++ .unitMode units :: .absoluteMode :: rest ∧
      ∀ instruction ∈ remarks, instruction = .remark := by
  induction program with
  | nil => nomatch run
  | cons instruction rest ih =>
    cases run with
    | cons step hrest =>
      cases step with
      | remark =>
        obtain ⟨remarks, units, tail, rfl, hremarks⟩ := ih hrest
        exact ⟨.remark :: remarks, units, tail, rfl, List.forall_mem_cons.2 ⟨rfl, hremarks⟩⟩
      | unitMode units =>
        obtain - | ⟨⟨⟩, _⟩ := hrest
        exact ⟨[], units, _, rfl, List.forall_mem_nil _⟩

theorem tool_started {after : List Instruction} (run : Run safe .selected after .ended) :
    ∃ speed rest, after = .toolChange :: .spindleSpeed speed :: .spindleOn :: rest := by
  obtain - | ⟨⟨⟩, run⟩ := run
  obtain - | ⟨⟨⟩, run⟩ := run
  obtain - | ⟨⟨⟩, run⟩ := run
  exact ⟨_, _, rfl⟩

/-- A pass goes on with cuts of one feed until the retract. -/
theorem pass_ahead {feed : List Char} {after : List Instruction}
    (run : Run safe (.cutting feed) after .ended) :
    ∃ cuts rest, after = cuts ++ .rapidHeight safe :: rest ∧
      ∀ instruction ∈ cuts, ∃ x z, instruction = .cut x z feed := by
  induction after with
  | nil => nomatch run
  | cons instruction rest ih =>
    cases run with
    | cons step hrest =>
      cases step with
      | nextCut x z =>
        obtain ⟨cuts, tail, rfl, hcuts⟩ := ih hrest
        exact ⟨.cut x z feed :: cuts, tail, rfl, List.forall_mem_cons.2 ⟨⟨x, z, rfl⟩, hcuts⟩⟩
      | retract => exact ⟨[], rest, rfl, List.forall_mem_nil _⟩

theorem ending {program : List Instruction} (run : Run safe .opening program .ended) :
    ∃ before, program = before ++ [.endOfProgram] ∧ .endOfProgram ∉ before := by
  obtain h | ⟨source, instruction, hlast, step⟩ := run.last_step
  · exact absurd h (by simp)
  · rw [step.eq_endOfProgram] at hlast
    obtain ⟨before, rfl⟩ := List.getLast?_eq_some_iff.1 hlast
    refine ⟨before, rfl, fun hmem => ?_⟩
    obtain ⟨front, back, rfl⟩ := List.append_of_mem hmem
    rw [List.append_assoc, List.cons_append] at run
    obtain ⟨_, _, -, ⟨⟩, hback⟩ := run.step_at
    exact absurd hback.eq_nil_of_ended (by simp)

/-- A program that runs through its stages is in safe order. -/
theorem safeOrder {program : List Instruction} (run : Run safe .opening program .ended) :
    SafeOrder safe program where
  modes := run.modes
  ending := run.ending
  moves := by
    rintro before instruction after rfl hmove
    obtain ⟨source, target, hbefore, step, hafter⟩ := run.step_at
    obtain ⟨hsource, htarget⟩ := step.turns_of_isMove hmove
    exact ⟨hbefore.turns_eq_spindleTurns ▸ hsource, hafter.head?_filter_isSpindle htarget⟩
  spindle := by
    rintro before instruction after rfl hspindle
    obtain ⟨source, target, hbefore, step, -⟩ := run.step_at
    rw [← hbefore.turns_eq_spindleTurns]
    exact step.turns_of_isSpindle hspindle
  turret := by
    rintro before instruction after rfl hturret
    obtain ⟨source, target, hbefore, step, -⟩ := run.step_at
    rw [← hbefore.turns_eq_spindleTurns]
    exact step.turns_of_turnsTurret hturret
  tools := by
    rintro before number after rfl
    obtain ⟨_, _, -, ⟨⟩, hafter⟩ := run.step_at
    exact hafter.tool_started
  passes := by
    rintro before x z after rfl
    obtain ⟨_, _, hbefore, ⟨⟩, hafter⟩ := run.step_at
    constructor
    · obtain h | ⟨_, _, hlast, step⟩ := hbefore.last_step
      · exact absurd h (by simp)
      · rw [hlast, step.eq_rapidHeight]
    · obtain - | ⟨⟨⟩, hcuts⟩ := hafter
      obtain ⟨cuts, rest, rfl, h⟩ := hcuts.pass_ahead
      exact ⟨_, cuts, rest, rfl, h⟩
  cuts := by
    rintro before x z feed after rfl
    obtain ⟨source, target, hbefore, hstep, -⟩ := run.step_at
    obtain h | ⟨_, instruction, hlast, hprevious⟩ := hbefore.last_step
    · subst h
      nomatch hstep
    · rw [hlast]
      cases hstep with
      | firstCut => exact .inl (congrArg some hprevious.eq_rapid)
      | nextCut =>
        obtain ⟨x', z', heq⟩ := hprevious.eq_cut
        exact .inr ⟨x', z', congrArg some heq⟩

end Run

end Turnery.Gcode
