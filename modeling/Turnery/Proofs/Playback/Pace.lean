import Mathlib
import Turnery.Playback.Timeline
import Turnery.Proofs.Playback.Session

/-!
# The pace of a run

A run that is slept through has reported the positions that have fallen due since, no matter in how
many pieces the time was slept: the moment at which the next position falls due is kept from one
sleep to the next. A position that falls due at the end of a sleep still counts to it.

`Run.Plays` says what a run does up to a limit, without the clock and without a bound on the steps.
What is played up to one limit and then to a later one is what is played up to the later one
(`Run.Plays.trans`). From there follow `Timeline.sleep_sleep` for every timeline whose run is over
the path that is loaded, and `Timeline.reports_of_sleeps`.
-/

namespace Turnery.Playback

open Gcode (Waypoint)
open Timeline (isReached)

/-- How many of some positions fall due within a time, the first of them at once. -/
def duePositions (pace time count : Nat) : Nat :=
  if pace = 0 then count else min count (1 + time / pace)

/-- How many of some positions fall due up to a limit, the first of them at a given moment. -/
def dueUpTo (limit : Option Nat) (pace due count : Nat) : Nat :=
  match limit with
  | none => count
  | some last => if due ≤ last then duePositions pace (last - due) count else 0

variable {limit : Option Nat} {pace due count : Nat}

theorem duePositions_zero (pace time : Nat) : duePositions pace time 0 = 0 := by
  simp [duePositions]

theorem dueUpTo_zero (limit : Option Nat) (pace due : Nat) : dueUpTo limit pace due 0 = 0 := by
  cases limit with
  | none => rfl
  | some last => simp [dueUpTo, duePositions_zero]

theorem dueUpTo_of_not_isReached (h : isReached limit due = false) :
    dueUpTo limit pace due count = 0 := by
  cases limit with
  | none => nomatch h
  | some last => exact if_neg (of_decide_eq_false h)

/-- The positions behind the first are those that fall due an interval later. -/
theorem dueUpTo_succ (h : isReached limit due = true) :
    dueUpTo limit pace due (count + 1) = dueUpTo limit pace (due + pace) count + 1 := by
  cases limit with
  | none => rfl
  | some last =>
    have hdue : due ≤ last := of_decide_eq_true h
    rw [dueUpTo, dueUpTo, if_pos hdue]
    obtain rfl | hpace := Nat.eq_zero_or_pos pace
    · simp only [Nat.add_zero, if_pos hdue]
      rfl
    · have hne := Nat.ne_of_gt hpace
      rw [duePositions, duePositions, if_neg hne, if_neg hne]
      by_cases hnext : due + pace ≤ last
      · have hdiv : (last - due) / pace = (last - (due + pace)) / pace + 1 := by
          rw [Nat.div_eq_sub_div hpace (by omega), Nat.sub_sub]
        rw [if_pos hnext, hdiv]
        omega
      · rw [if_neg hnext, Nat.div_eq_of_lt (by omega)]
        omega

namespace Run

/-- The run reports all positions that fall due up to a limit, each with its time; left are a run
and the moment at which its next position falls due. -/
inductive Plays (limit : Option Nat) (pace : Nat) :
    Run → Nat → List (Nat × Waypoint) → Run → Nat → Prop where
  | rest {run : Run} {due : Nat} (still : isReached limit due = false ∨ run.isOver = true) :
    Plays limit pace run due [] run due
  | step {run run' : Run} {due due' : Nat} {reports : List (Nat × Waypoint)}
    (reached : isReached limit due = true) (goesOn : run.isOver = false)
    (behind : Plays limit pace run.step.1 (due + pace) reports run' due') :
    Plays limit pace run due (run.step.2.toList.map (due, ·) ++ reports) run' due'

variable {run run' : Run} {due' : Nat} {reports : List (Nat × Waypoint)}

/-- A run is played in one way. -/
theorem Plays.unique (h : run.Plays limit pace due reports run' due') {run'' : Run} {due'' : Nat}
    {others : List (Nat × Waypoint)} (h' : run.Plays limit pace due others run'' due'') :
    reports = others ∧ run' = run'' ∧ due' = due'' := by
  induction h generalizing others with
  | rest still =>
    cases h' with
    | rest => exact ⟨rfl, rfl, rfl⟩
    | step reached goesOn =>
      rw [reached, goesOn] at still
      simp at still
  | step reached goesOn behind ih =>
    cases h' with
    | rest still =>
      rw [reached, goesOn] at still
      simp at still
    | step _ _ behind' =>
      obtain ⟨rfl, rfl, rfl⟩ := ih behind'
      exact ⟨rfl, rfl, rfl⟩

/-- A limit that is later can be gone to at once. -/
theorem Plays.trans {later : Option Nat}
    (hlimits : ∀ moment, isReached limit moment = true → isReached later moment = true)
    (h : run.Plays limit pace due reports run' due') {run'' : Run} {due'' : Nat}
    {others : List (Nat × Waypoint)} (h' : run'.Plays later pace due' others run'' due'') :
    run.Plays later pace due (reports ++ others) run'' due'' := by
  induction h with
  | rest => exact h'
  | step reached goesOn behind ih =>
    rw [List.append_assoc]
    exact .step (hlimits _ reached) goesOn (ih h')

theorem Plays.eq_of_isOver (h : run.Plays limit pace due reports run' due')
    (ended : run.isOver = true) :
    reports = [] ∧ run' = run ∧ due' = due := by
  cases h with
  | rest => exact ⟨rfl, rfl, rfl⟩
  | step reached goesOn =>
    rw [ended] at goesOn
    nomatch goesOn

theorem Plays.path_eq (h : run.Plays limit pace due reports run' due') : run'.path = run.path := by
  induction h with
  | rest => rfl
  | step reached goesOn behind ih => exact ih.trans (path_step _)

theorem remaining_step {position : Waypoint} {others : List Waypoint} (goesOn : run.isOver = false)
    (hrest : run.remaining = position :: others) : run.step.1.remaining = others := by
  rw [step_of_remaining_cons goesOn hrest]
  have hdrop : run.path.drop (run.reported + 1) = (run.path.drop run.reported).drop 1 :=
    List.drop_drop.symm
  exact hdrop.trans (congrArg (List.drop 1) hrest)

theorem isOver_step_of_cons {position : Waypoint} {others : List Waypoint}
    (goesOn : run.isOver = false) (hrest : run.remaining = position :: others) :
    run.step.1.isOver = others.isEmpty := by
  have hcancelled : run.cancelled = false := (Bool.or_eq_false_iff.1 goesOn).1
  rw [step_of_remaining_cons goesOn hrest, isOver, hcancelled, Bool.false_or]

/-- What a run reports are its next positions, as many as fall due. It goes on as long as some are
left. -/
theorem Plays.reports_eq (h : run.Plays limit pace due reports run' due')
    (goesOn : run.isOver = false) (begins : run.remaining ≠ [] ∨ isReached limit due = true) :
    reports.map Prod.snd = run.remaining.take (dueUpTo limit pace due run.remaining.length) ∧
      run'.remaining = run.remaining.drop (dueUpTo limit pace due run.remaining.length) ∧
      (run'.isOver = false ↔ dueUpTo limit pace due run.remaining.length <
        run.remaining.length) := by
  induction h with
  | @rest run due still =>
    have hreached := still.resolve_right (by simp [goesOn])
    have hsome : run.remaining ≠ [] := begins.resolve_right (by simp [hreached])
    rw [dueUpTo_of_not_isReached hreached]
    exact ⟨rfl, rfl, iff_of_true goesOn (List.length_pos_iff.2 hsome)⟩
  | @step run run' due due' reports reached _ behind ih =>
    cases hrest : run.remaining with
    | nil =>
      -- Without positions the first step finds the end.
      rw [step_of_remaining_nil goesOn hrest] at behind ⊢
      have hover : Run.isOver { run with finished := true } = true := by simp [isOver]
      obtain ⟨rfl, rfl, -⟩ := behind.eq_of_isOver hover
      rw [List.length_nil, dueUpTo_zero, hover]
      exact ⟨rfl, hrest, by simp⟩
    | cons position others =>
      have hremaining := remaining_step goesOn hrest
      have hover := isOver_step_of_cons goesOn hrest
      have hreport : run.step.2 = some position := by rw [step_of_remaining_cons goesOn hrest]
      rw [hreport, List.length_cons, dueUpTo_succ reached]
      cases others with
      | nil =>
        obtain ⟨rfl, rfl, -⟩ := behind.eq_of_isOver hover
        rw [List.length_nil, dueUpTo_zero, hremaining, hover]
        exact ⟨rfl, rfl, by simp⟩
      | cons next others =>
        obtain ⟨hreports, hleft, hends⟩ :=
          ih hover (.inl (by rw [hremaining]; exact List.cons_ne_nil _ _))
        rw [hremaining] at hreports hleft hends
        refine ⟨?_, hleft, hends.trans (Nat.add_lt_add_iff_right).symm⟩
        rw [List.map_append, hreports]
        rfl

/-- Without a limit a run reports what it has left, unless it was cancelled. -/
theorem Plays.reports_of_unlimited (h : run.Plays none pace due reports run' due')
    (ended : run.isOver = true → run.remaining = []) : reports.map Prod.snd = run.remaining := by
  cases hover : run.isOver with
  | true =>
    obtain ⟨rfl, -, -⟩ := h.eq_of_isOver hover
    rw [ended hover]
    rfl
  | false =>
    have hreports := (h.reports_eq hover (.inr rfl)).1
    rwa [dueUpTo, List.take_length] at hreports

/-- How many steps a run has before it is over. -/
def stepsLeft (run : Run) : Nat :=
  if run.isOver then 0 else max 1 run.remaining.length

theorem stepsLeft_step_lt (goesOn : run.isOver = false) : run.step.1.stepsLeft < run.stepsLeft := by
  rw [stepsLeft, stepsLeft, goesOn]
  cases hrest : run.remaining with
  | nil =>
    rw [step_of_remaining_nil goesOn hrest]
    simp [isOver]
  | cons position others =>
    rw [isOver_step_of_cons goesOn hrest, remaining_step goesOn hrest]
    cases others with
    | nil => simp
    | cons next others => simp

theorem stepsLeft_le (run : Run) : run.stepsLeft ≤ run.path.length + 1 := by
  have hremaining : run.remaining.length ≤ run.path.length := by
    rw [remaining, List.length_drop]
    exact Nat.sub_le _ _
  rw [stepsLeft]
  split <;> omega

end Run

namespace Player

/-- The run is the one under control. -/
structure Follows (player : Player) (id : Nat) (run : Run) : Prop where
  active : player.active = some id
  stored : player.runs[id]? = some run

/-- The player with another state of a run. -/
def withRun (player : Player) (id : Nat) (run : Run) : Player :=
  { player with runs := player.runs.set id run }

variable {player : Player} {id : Nat} {run : Run}

theorem withRun_withRun (player : Player) (id : Nat) (run other : Run) :
    (player.withRun id run).withRun id other = player.withRun id other := by
  rw [withRun, withRun, withRun, List.set_set]

theorem Follows.withRun (h : player.Follows id run) (other : Run) :
    (player.withRun id other).Follows id other where
  active := h.active
  stored := List.getElem?_set_self (List.getElem?_eq_some_iff.1 h.stored).1

theorem Follows.withRun_self (h : player.Follows id run) : player.withRun id run = player := by
  obtain ⟨hlt, hrun⟩ := List.getElem?_eq_some_iff.1 h.stored
  rw [Player.withRun, ← hrun, List.set_getElem_self]

theorem Follows.isRunning_eq (h : player.Follows id run) : player.isRunning = !run.isOver := by
  rw [isRunning, activeRun?, h.active, Option.bind_some, h.stored]

theorem Follows.step_eq (h : player.Follows id run) :
    player.step id = (player.withRun id run.step.1, run.step.2) := by
  rw [step, h.stored]
  rfl

theorem follows_start (player : Player) :
    player.start.Follows player.runs.length (Run.ofPath player.path) where
  active := by rw [start, length_runs_cancelActive]
  stored := by
    have hlast :=
      List.getElem?_concat_length (l := player.cancelActive.runs) (a := Run.ofPath player.path)
    rw [length_runs_cancelActive] at hlast
    rw [start, path_cancelActive]
    exact hlast

end Player

/-- A call on a timeline. -/
inductive Call where
  | load (program : String)
  | start (interval : Nat)
  | pause
  | stop
  | sleep (millis : Nat)
  | wait

namespace Timeline

/-- The timeline after a call, and what was reported meanwhile. -/
def call (t : Timeline) : Call → Timeline × List Waypoint
  | .load program => (t.load program, [])
  | .start interval => (t.start interval, [])
  | .pause => (t.pause, [])
  | .stop => (t.stop, [])
  | .sleep millis => t.sleep millis
  | .wait => t.wait

def after (t : Timeline) (calls : List Call) : Timeline :=
  calls.foldl (fun t c => (t.call c).1) t

/-- Several sleeps, one after the other. -/
def sleepAll : Timeline → List Nat → Timeline × List Waypoint
  | t, [] => (t, [])
  | t, nap :: naps =>
    let (t, reports) := t.sleep nap
    let (t, others) := t.sleepAll naps
    (t, reports ++ others)

/-- The run under control, if there is one, is over the path that is loaded. -/
def Consistent (t : Timeline) : Prop :=
  ∀ id, t.player.active = some id → ∃ run, t.player.Follows id run ∧ run.path = t.player.path

variable {t : Timeline} {id : Nat} {run : Run}

/-- With a step for each that the run has left, the run is played to the limit. -/
theorem exists_plays_advance {fuel : Nat} (h : t.player.Follows id run)
    (enough : run.stepsLeft ≤ fuel) (begun : fuel = 0 → ∃ due, t.due = some due) :
    ∃ reports run' due', run.Plays limit t.pace (t.due.getD t.now) reports run' due' ∧
      advance limit id fuel t = ({ t with player := t.player.withRun id run', due := some due' },
        reports) := by
  induction fuel generalizing t run with
  | zero =>
    obtain ⟨due, hdue⟩ := begun rfl
    have hover : run.isOver = true := by
      cases hover : run.isOver with
      | true => rfl
      | false =>
        rw [Run.stepsLeft, hover, if_neg Bool.false_ne_true] at enough
        omega
    refine ⟨[], run, due, ?_, ?_⟩
    · rw [hdue]
      exact .rest (.inr hover)
    · rw [advance, h.withRun_self, ← hdue]
  | succ fuel ih =>
    rw [advance, h.isRunning_eq, h.step_eq]
    dsimp only
    cases hstep : isReached limit (t.due.getD t.now) && !run.isOver with
    | true =>
      obtain ⟨hreached, hover⟩ : isReached limit (t.due.getD t.now) = true ∧
        run.isOver = false := by simpa using hstep
      have hless := Run.stepsLeft_step_lt hover
      obtain ⟨reports, run', due', hplays, hadvance⟩ := ih
        (t := { t with
          player := t.player.withRun id run.step.1
          due := some (t.due.getD t.now + t.pace) })
        (h.withRun run.step.1) (by omega) (fun _ => ⟨_, rfl⟩)
      refine ⟨_, run', due', .step hreached hover hplays, ?_⟩
      rw [if_pos rfl, hadvance]
      dsimp only
      rw [Player.withRun_withRun]
    | false =>
      have hstill : isReached limit (t.due.getD t.now) = false ∨ run.isOver = true := by
        rwa [Bool.and_eq_false_iff, Bool.not_eq_false'] at hstep
      refine ⟨[], run, t.due.getD t.now, .rest hstill, ?_⟩
      rw [if_neg Bool.false_ne_true, h.withRun_self]

/-- The run under control is played to the limit. -/
theorem exists_plays_play (limit : Option Nat) (h : t.player.Follows id run)
    (hpath : run.path = t.player.path) :
    ∃ reports run' due', run.Plays limit t.pace (t.due.getD t.now) reports run' due' ∧
      t.play limit = ({ t with player := t.player.withRun id run', due := some due' },
        reports) := by
  have enough := run.stepsLeft_le
  rw [hpath] at enough
  rw [play, h.active]
  exact exists_plays_advance h enough (fun hzero => absurd hzero (Nat.succ_ne_zero _))

theorem exists_plays_sleep (millis : Nat) (h : t.player.Follows id run)
    (hpath : run.path = t.player.path) :
    ∃ reports run' due',
      run.Plays (some (t.now + millis)) t.pace (t.due.getD t.now) reports run' due' ∧
      t.sleep millis =
        ({ t with player := t.player.withRun id run', now := t.now + millis, due := some due' },
          reports.map Prod.snd) := by
  obtain ⟨reports, run', due', hplays, hplay⟩ := exists_plays_play (some (t.now + millis)) h hpath
  refine ⟨reports, run', due', hplays, ?_⟩
  rw [sleep, hplay]

theorem exists_plays_wait (h : t.player.Follows id run) (hpath : run.path = t.player.path) :
    ∃ reports run' due', run.Plays none t.pace (t.due.getD t.now) reports run' due' ∧
      t.wait.2 = reports.map Prod.snd := by
  obtain ⟨reports, run', due', hplays, hplay⟩ := exists_plays_play none h hpath
  refine ⟨reports, run', due', hplays, ?_⟩
  rw [wait, hplay]

theorem sleep_of_active_eq_none (h : t.player.active = none) (millis : Nat) :
    t.sleep millis = ({ t with now := t.now + millis }, []) := by
  rw [sleep, play, h]
  rfl

theorem consistent_of_active_eq_none (h : t.player.active = none) : t.Consistent := by
  intro id hid
  rw [h] at hid
  nomatch hid

theorem consistent_start (t : Timeline) (interval : Nat) : (t.start interval).Consistent := by
  intro id hid
  have hfollows := t.player.follows_start
  obtain rfl := Option.some.inj (hfollows.active.symm.trans hid)
  exact ⟨_, hfollows, (Player.path_cancelActive _).symm⟩

theorem Consistent.sleep (h : t.Consistent) (millis : Nat) : (t.sleep millis).1.Consistent := by
  cases hactive : t.player.active with
  | none =>
    rw [sleep_of_active_eq_none hactive]
    exact consistent_of_active_eq_none hactive
  | some id =>
    obtain ⟨run, hfollows, hpath⟩ := h id hactive
    obtain ⟨reports, run', due', hplays, hsleep⟩ := exists_plays_sleep millis hfollows hpath
    rw [hsleep]
    intro other hother
    obtain rfl := Option.some.inj (hactive.symm.trans hother)
    exact ⟨run', hfollows.withRun run', hplays.path_eq.trans hpath⟩

theorem Consistent.call (h : t.Consistent) (c : Call) : (t.call c).1.Consistent := by
  cases c with
  | load program => exact consistent_of_active_eq_none (Player.active_cancelActive _)
  | start interval => exact consistent_start t interval
  | pause => exact consistent_of_active_eq_none (Player.active_cancelActive _)
  | stop => exact consistent_of_active_eq_none (Player.active_cancelActive _)
  | sleep millis => exact h.sleep millis
  | wait => exact consistent_of_active_eq_none rfl

theorem Consistent.after (h : t.Consistent) (calls : List Call) : (t.after calls).Consistent := by
  induction calls generalizing t with
  | nil => exact h
  | cons c calls ih => exact ih (h.call c)

theorem isReached_mono {last later : Nat} (h : last ≤ later) (moment : Nat)
    (hreached : isReached (some last) moment = true) : isReached (some later) moment = true :=
  decide_eq_true (Nat.le_trans (of_decide_eq_true hreached) h)

/-- A sleep can be interrupted. -/
theorem sleep_sleep (h : t.Consistent) (a b : Nat) :
    let first := t.sleep a
    let second := first.1.sleep b
    (second.1, first.2 ++ second.2) = t.sleep (a + b) := by
  intro first second
  cases hactive : t.player.active with
  | none =>
    have hfirst : first = _ := sleep_of_active_eq_none hactive a
    have hsecond : second = _ := sleep_of_active_eq_none (by rw [hfirst]; exact hactive) b
    rw [hsecond, hfirst, sleep_of_active_eq_none hactive, Nat.add_assoc]
    rfl
  | some id =>
    obtain ⟨run, hfollows, hpath⟩ := h id hactive
    obtain ⟨reports, run₁, due₁, hplays₁, hfirst⟩ := exists_plays_sleep a hfollows hpath
    have hfirst : first = _ := hfirst
    obtain ⟨others, run₂, due₂, hplays₂, hsecond⟩ := exists_plays_sleep (t := first.1) b
      (by rw [hfirst]; exact hfollows.withRun run₁)
      (by rw [hfirst]; exact hplays₁.path_eq.trans hpath)
    have hsecond : second = _ := hsecond
    obtain ⟨all, run₃, due₃, hplays₃, hwhole⟩ := exists_plays_sleep (a + b) hfollows hpath
    rw [hfirst] at hplays₂
    -- Up to the end of the second sleep there is one way to play the run.
    have hboth := hplays₁.trans (isReached_mono (Nat.le_add_right _ b)) hplays₂
    obtain ⟨rfl, rfl, rfl⟩ := hboth.unique (by rw [Nat.add_assoc]; exact hplays₃)
    rw [hwhole, hsecond, hfirst, List.map_append]
    dsimp only
    rw [Player.withRun_withRun, Nat.add_assoc]

theorem sleepAll_cons (t : Timeline) (nap : Nat) (naps : List Nat) :
    t.sleepAll (nap :: naps) =
      (((t.sleep nap).1.sleepAll naps).1, (t.sleep nap).2 ++ ((t.sleep nap).1.sleepAll naps).2) :=
  rfl

/-- Several sleeps are one. -/
theorem sleepAll_eq_sleep (h : t.Consistent) (nap : Nat) (naps : List Nat) :
    t.sleepAll (nap :: naps) = t.sleep (nap + naps.sum) := by
  induction naps generalizing t nap with
  | nil =>
    rw [sleepAll_cons, sleepAll, List.append_nil, List.sum_nil, Nat.add_zero]
  | cons next naps ih =>
    rw [sleepAll_cons, ih (h.sleep nap), List.sum_cons, ← sleep_sleep h]

/-- An interval is counted in milliseconds by its quotient, rounded up. -/
theorem wholeMillis_eq_ceilDiv (interval : Nat) : wholeMillis interval = interval ⌈/⌉ 10 ^ 6 := by
  have hmilli : nanosPerMilli = 10 ^ 6 := rfl
  rw [wholeMillis, hmilli, Nat.ceilDiv_eq_add_pred_div, Nat.add_sub_assoc (by decide)]

/-- What a run has reported after a sleep are the positions that have fallen due since its start. It
is running as long as some are left, and a wait reports these. -/
theorem reports_of_sleep (t : Timeline) (interval millis : Nat) :
    let path := t.player.path
    let reported := duePositions (interval ⌈/⌉ 10 ^ 6) millis path.length
    let slept := (t.start interval).sleep millis
    slept.2 = path.take reported ∧ (slept.1.player.isRunning = true ↔ reported < path.length) ∧
      slept.1.wait.2 = path.drop reported := by
  intro path reported slept
  have hpace : (t.start interval).pace = interval ⌈/⌉ 10 ^ 6 := wholeMillis_eq_ceilDiv interval
  have hfollows := t.player.follows_start
  obtain ⟨reports, run, due, hplays, hslept⟩ :=
    exists_plays_sleep (t := t.start interval) millis hfollows (Player.path_cancelActive _).symm
  have hslept : slept = _ := hslept
  have hplays : (Run.ofPath path).Plays (some (t.now + millis)) (interval ⌈/⌉ 10 ^ 6) t.now reports
      run due := by
    rw [← hpace]
    exact hplays
  have hremaining : (Run.ofPath path).remaining = path := rfl
  have hcount : dueUpTo (some (t.now + millis)) (interval ⌈/⌉ 10 ^ 6) t.now path.length =
      reported := by
    rw [dueUpTo, if_pos (Nat.le_add_right _ _), Nat.add_sub_cancel_left]
  obtain ⟨hreports, hleft, hends⟩ :=
    hplays.reports_eq rfl (.inr (decide_eq_true (Nat.le_add_right _ _)))
  rw [hremaining, hcount] at hreports hleft hends
  have hfollows' : slept.1.player.Follows t.player.runs.length run := by
    rw [hslept]
    exact hfollows.withRun run
  refine ⟨?_, ?_, ?_⟩
  · rw [hslept]
    exact hreports
  · rw [hfollows'.isRunning_eq, Bool.not_eq_true', hends]
  · have hpath : run.path = slept.1.player.path := by
      rw [hslept]
      exact hplays.path_eq.trans (Player.path_cancelActive _).symm
    obtain ⟨others, run', due', hplays', hwait⟩ := exists_plays_wait hfollows' hpath
    rw [hwait, hplays'.reports_of_unlimited, hleft]
    intro hover
    have hend : ¬reported < path.length := by
      rw [← hends, hover]
      exact Bool.noConfusion
    rw [hleft, List.drop_eq_nil_of_le (Nat.le_of_not_lt hend)]

/-- A timeline reports what has fallen due: after a start, any sleeps report as many positions as
fall due within their time, the first at once; the run is running as long as some are left, and
these are what a wait reports. After any calls, two sleeps are one. -/
theorem reports_of_sleeps :
    (∀ (t : Timeline) (interval nap : Nat) (naps : List Nat),
      let path := t.player.path
      let reported := duePositions (interval ⌈/⌉ 10 ^ 6) (nap + naps.sum) path.length
      let slept := (t.start interval).sleepAll (nap :: naps)
      slept.2 = path.take reported ∧ (slept.1.player.isRunning = true ↔ reported < path.length) ∧
        slept.1.wait.2 = path.drop reported ∧ slept = (t.start interval).sleep (nap + naps.sum)) ∧
    ∀ (calls : List Call) (a b : Nat),
      let t := new.after calls
      let first := t.sleep a
      let second := first.1.sleep b
      (second.1, first.2 ++ second.2) = t.sleep (a + b) := by
  constructor
  · intro t interval nap naps path reported slept
    have hslept : slept = (t.start interval).sleep (nap + naps.sum) :=
      sleepAll_eq_sleep (consistent_start t interval) nap naps
    obtain ⟨hreports, hruns, hwaits⟩ := reports_of_sleep t interval (nap + naps.sum)
    rw [← hslept] at hreports hruns hwaits
    exact ⟨hreports, hruns, hwaits, hslept⟩
  · intro calls
    exact sleep_sleep ((consistent_of_active_eq_none rfl).after calls)

/-- Two milliseconds and a nanosecond make three ticks: of three positions, five ticks see two fall
due, in one sleep or in two, and the wait reports the third. After a pause the run starts over, and
with no interval it is over at once. -/
theorem reports_of_sleeps_polled :
    let t := new.load "G0 X1 Z2\nG1 X3\nG1 Z5\n"
    let slept := (t.start 2000001).sleepAll [1, 4]
    let again := (slept.1.pause.start 0).sleepAll [0]
    slept.2 = [⟨1, 2⟩, ⟨3, 2⟩] ∧ slept.1.player.isRunning = true ∧ slept.1.wait.2 = [⟨3, 5⟩] ∧
      slept = (t.start 2000001).sleep 5 ∧
      again.2 = [⟨1, 2⟩, ⟨3, 2⟩, ⟨3, 5⟩] ∧ again.1.player.isRunning = false := by
  intro t slept again
  have hpath : t.player.path = [⟨1, 2⟩, ⟨3, 2⟩, ⟨3, 5⟩] := by decide +kernel
  have hagain : slept.1.pause.player.path = [⟨1, 2⟩, ⟨3, 2⟩, ⟨3, 5⟩] := by decide +kernel
  have hlength : ([⟨1, 2⟩, ⟨3, 2⟩, ⟨3, 5⟩] : List Waypoint).length = 3 := rfl
  have htwo : duePositions (2000001 ⌈/⌉ 10 ^ 6) (1 + [4].sum) 3 = 2 := by decide +kernel
  have hthree : duePositions (0 ⌈/⌉ 10 ^ 6) (0 + [].sum) 3 = 3 := by decide +kernel
  obtain ⟨hreports, hruns, hwaits, hwhole⟩ := reports_of_sleeps.1 t 2000001 1 [4]
  obtain ⟨hall, hends, -, -⟩ := reports_of_sleeps.1 slept.1.pause 0 0 []
  rw [hpath, hlength, htwo] at hreports hruns hwaits
  rw [hagain, hlength, hthree] at hall hends
  refine ⟨hreports, hruns.2 (by decide), hwaits, hwhole, hall, ?_⟩
  rw [← Bool.not_eq_true, hends]
  exact Nat.lt_irrefl 3

end Timeline

end Turnery.Playback
