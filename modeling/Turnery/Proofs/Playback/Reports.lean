import Turnery.Proofs.Playback.Session

/-!
# What runs report

A history of events determines the path that is loaded at its end and the number of runs that were
started. The run started after a history reports positions of the path loaded by then, from the
first one on, and stops for good at the next call that cancels. `reports_of_legal` collects this for
all legal histories.
-/

namespace Turnery.Playback

open Gcode (Waypoint)

namespace Event

/-- The call cancels the run under control. -/
def Cancels : Event → Prop
  | .load _ | .start | .pause | .stop => True
  | .await | .leave | .step _ => False

def IsStep : Event → Prop
  | .step _ => True
  | _ => False

instance : (event : Event) → Decidable event.Cancels
  | .load _ | .start | .pause | .stop => isTrue trivial
  | .await | .leave | .step _ => isFalse id

instance : (event : Event) → Decidable event.IsStep
  | .step _ => isTrue trivial
  | .load _ | .start | .pause | .stop | .await | .leave => isFalse id

/-- The path after an event: loading replaces it, stopping empties it, and nothing else touches
it. -/
def pathAfter (path : List Waypoint) : Event → List Waypoint
  | .load program => Waypoint.path program
  | .stop => []
  | _ => path

end Event

/-- The path that a history leaves loaded. -/
def loadedPath (events : List Event) : List Waypoint :=
  events.foldl Event.pathAfter []

/-- How many runs a history has started. -/
def runsStarted (events : List Event) : Nat :=
  events.count .start

namespace Session

variable {s : Session}

theorem path_after (s : Session) (event : Event) :
    (s.after event).player.path = event.pathAfter s.player.path := by
  cases event with
  | load program => rfl
  | start => exact Player.path_cancelActive _
  | pause => exact Player.path_cancelActive _
  | stop => rfl
  | await => rfl
  | leave => rfl
  | step id =>
    cases hrun : s.player.runs[id]? with
    | none => rw [after_step_of_none hrun]; rfl
    | some run => rw [after_step_of_some hrun]; rfl

theorem length_runs_after (s : Session) (event : Event) :
    (s.after event).player.runs.length = s.player.runs.length + if event = .start then 1
      else 0 := by
  cases event with
  | load program => exact Player.length_runs_cancelActive _
  | start => simp [after, Player.start]
  | pause => exact Player.length_runs_cancelActive _
  | stop => exact Player.length_runs_cancelActive _
  | await => rfl
  | leave => rfl
  | step id =>
    cases hrun : s.player.runs[id]? with
    | none => rw [after_step_of_none hrun]; rfl
    | some run => rw [after_step_of_some hrun]; simp

/-- A new run is over the path as it is and comes under control. -/
theorem after_start (s : Session) :
    (s.after .start).player.runs[s.player.runs.length]? = some (Run.ofPath s.player.path) ∧
      (s.after .start).player.active = some s.player.runs.length := by
  constructor
  · rw [← Player.length_runs_cancelActive, ← Player.path_cancelActive]
    exact List.getElem?_concat_length
  · exact congrArg some (Player.length_runs_cancelActive _)

/-- Later in a session a run has kept its path, and if it was over it is over and silent. -/
structure Follows (s : Session) (id : Nat) (run : Run) (t : Session) (later : Run) : Prop where
  getElem? : t.player.runs[id]? = some later
  path : later.path = run.path
  isOver : run.isOver = true → later.isOver = true ∧ reportsOf t.log id = reportsOf s.log id

theorem exists_follows_cancelActive {id : Nat} {run : Run} (h : s.player.runs[id]? = some run) :
    ∃ later, Follows s id run ⟨s.player.cancelActive, s.log⟩ later := by
  refine ⟨if s.player.active = some id then run.cancel else run, ?_, ?_, fun hover => ⟨?_, rfl⟩⟩
  · rw [Player.getElem?_runs_cancelActive, h]
    rfl
  · split <;> rfl
  · split
    · exact run.isOver_cancel
    · exact hover

/-- No event takes a run's path away or makes it go on once it is over. -/
theorem exists_follows_after {id : Nat} {run : Run} (h : s.player.runs[id]? = some run)
    (event : Event) :
    ∃ later, Follows s id run (s.after event) later := by
  cases event with
  | load program =>
    obtain ⟨later, hlater⟩ := exists_follows_cancelActive h
    exact ⟨later, hlater.getElem?, hlater.path, hlater.isOver⟩
  | start =>
    obtain ⟨later, hlater⟩ := exists_follows_cancelActive h
    refine ⟨later, ?_, hlater.path, hlater.isOver⟩
    have hlt := (List.getElem?_eq_some_iff.1 hlater.getElem?).1
    exact (List.getElem?_append_left hlt).trans hlater.getElem?
  | pause => exact exists_follows_cancelActive h
  | stop =>
    obtain ⟨later, hlater⟩ := exists_follows_cancelActive h
    exact ⟨later, hlater.getElem?, hlater.path, hlater.isOver⟩
  | await => exact ⟨run, h, rfl, fun hover => ⟨hover, rfl⟩⟩
  | leave => exact ⟨run, h, rfl, fun hover => ⟨hover, rfl⟩⟩
  | step stepping =>
    cases hstepping : s.player.runs[stepping]? with
    | none =>
      rw [after_step_of_none hstepping]
      exact ⟨run, h, rfl, fun hover => ⟨hover, rfl⟩⟩
    | some current =>
      rw [after_step_of_some hstepping]
      by_cases hsame : stepping = id
      · subst hsame
        obtain rfl : run = current := Option.some.inj (h.symm.trans hstepping)
        have hlt := (List.getElem?_eq_some_iff.1 h).1
        refine ⟨run.step.1, List.getElem?_set_self hlt, run.path_step, fun hover => ?_⟩
        refine ⟨Run.isOver_step hover, ?_⟩
        rw [reportsOf_append_report, Run.step_of_isOver hover]
        simp
      · refine ⟨run, (List.getElem?_set_ne hsame).trans h, rfl, fun hover => ⟨hover, ?_⟩⟩
        rw [reportsOf_append_report, if_neg hsame, List.append_nil]

/-- After a call that cancels, no run is attended that was there before it. -/
theorem not_attends_of_cancels {event : Event} (free : s.player.awaited = none)
    (cancels : event.Cancels) {id : Nat} (hid : id < s.player.runs.length) :
    ¬(s.after event).player.Attends id := by
  cases event with
  | start =>
    rintro (hactive | hawaited)
    · rw [(after_start s).2, Option.some.injEq] at hactive
      omega
    · rw [show (s.after .start).player.awaited =
        none from (Player.awaited_cancelActive _).trans free] at hawaited
      cases hawaited
  | load program => simp [after, Player.load, Player.Attends, free]
  | pause => simp [after, Player.pause, Player.Attends, free]
  | stop => simp [after, Player.stop, Player.Attends, free]
  | await | leave | step => exact False.elim cancels

theorem free_of_cancels {event : Event} (allowed : s.Allows event) (cancels : event.Cancels) :
    s.player.awaited = none := by
  cases event with
  | load | start | pause | stop => exact allowed
  | await | leave | step => exact False.elim cancels

/-- A call that cancels leaves every run over that was there before it. -/
theorem Sound.isOver_of_cancels (h : s.Sound) {event : Event} (allowed : s.Allows event)
    (cancels : event.Cancels) {id : Nat} {later : Run} (hid : id < s.player.runs.length)
    (hlater : (s.after event).player.runs[id]? = some later) : later.isOver = true :=
  (h.after allowed).isOver id later hlater
    (not_attends_of_cancels (free_of_cancels allowed cancels) cancels hid) not_false

theorem attended_after_step (s : Session) (id : Nat) :
    (s.after (.step id)).player.active = s.player.active ∧
      (s.after (.step id)).player.awaited = s.player.awaited := by
  cases hrun : s.player.runs[id]? with
  | none => rw [after_step_of_none hrun]; exact ⟨rfl, rfl⟩
  | some run => rw [after_step_of_some hrun]; exact ⟨rfl, rfl⟩

theorem path_replay (events : List Event) :
    (new.replay events).player.path = loadedPath events := by
  have general : ∀ s : Session, (s.replay events).player.path =
      events.foldl Event.pathAfter s.player.path := by
    induction events with
    | nil => exact fun _ => rfl
    | cons event events ih =>
      intro s
      rw [replay_cons, ih, path_after, List.foldl_cons]
  exact general new

theorem length_runs_replay (events : List Event) :
    (new.replay events).player.runs.length = runsStarted events := by
  have general : ∀ s : Session,
      (s.replay events).player.runs.length = s.player.runs.length + runsStarted events := by
    induction events with
    | nil => exact fun _ => rfl
    | cons event events ih =>
      intro s
      rw [replay_cons, ih, length_runs_after, runsStarted, runsStarted, List.count_cons]
      simp only [beq_iff_eq]
      omega
  rw [general new]
  exact Nat.zero_add _

theorem exists_follows_replay {id : Nat} {run : Run} (h : s.player.runs[id]? = some run)
    (events : List Event) : ∃ later, Follows s id run (s.replay events) later := by
  induction events generalizing s run with
  | nil => exact ⟨run, h, rfl, fun hover => ⟨hover, rfl⟩⟩
  | cons event events ih =>
    obtain ⟨next, hnext⟩ := exists_follows_after h event
    obtain ⟨later, hlater⟩ := ih hnext.getElem?
    refine ⟨later, hlater.getElem?, hlater.path.trans hnext.path, fun hover => ?_⟩
    obtain ⟨hover', hsame⟩ := hnext.isOver hover
    obtain ⟨hover'', hsame'⟩ := hlater.isOver hover'
    exact ⟨hover'', hsame'.trans hsame⟩

theorem attended_replay_of_steps {events : List Event} (steps : ∀ event ∈ events, event.IsStep)
    (s : Session) :
    (s.replay events).player.active = s.player.active ∧
      (s.replay events).player.awaited = s.player.awaited := by
  induction events generalizing s with
  | nil => exact ⟨rfl, rfl⟩
  | cons event events ih =>
    obtain ⟨hactive, hawaited⟩ := ih (fun e he => steps e (by simp [he])) (s.after event)
    cases event with
    | step id =>
      obtain ⟨hactive', hawaited'⟩ := attended_after_step s id
      exact ⟨hactive.trans hactive', hawaited.trans hawaited'⟩
    | load | start | pause | stop | await | leave => exact False.elim (steps _ List.mem_cons_self)

/-- The run that a `start` begins, seen at any later time. -/
theorem exists_follows_start (before rest : List Event) :
    ∃ later, Follows ((new.replay before).after .start) (runsStarted before)
      (Run.ofPath (loadedPath before)) (new.replay (before ++ .start :: rest)) later := by
  have hstarted := (after_start (new.replay before)).1
  rw [length_runs_replay, path_replay] at hstarted
  rw [replay_append]
  exact exists_follows_replay hstarted rest

theorem Sound.reports_prefix (h : s.Sound) {id : Nat} {run : Run}
    (hrun : s.player.runs[id]? = some run) :
    reportsOf s.log id <+: run.path := by
  rw [(h.accounts id run hrun).reports_eq]
  exact List.take_prefix _ _

/-- A run that came to its end without being cancelled has reported its whole path. -/
theorem Sound.reports_whole (h : s.Sound) {id : Nat} {run : Run}
    (hrun : s.player.runs[id]? = some run) (hattends : s.player.Attends id)
    (finished : run.finished = true) : reportsOf s.log id = run.path := by
  have haccounts := h.accounts id run hrun
  rw [haccounts.reports_eq, haccounts.whole finished (h.alive id run hrun (.inl hattends)),
    List.take_length]

theorem log_after_of_cancels {event : Event} (cancels : event.Cancels) :
    (s.after event).log = s.log := by
  cases event with
  | load | start | pause | stop => rfl
  | await | leave | step => exact False.elim cancels

/-- A run is silent from the next call on that cancels. -/
theorem reportsOf_of_cancelled {before middle tail : List Event} {call : Event}
    (cancels : call.Cancels) (legal : new.Legal (before ++ .start :: (middle ++ call :: tail))) :
    reportsOf (new.replay (before ++ .start :: (middle ++ call :: tail))).log (runsStarted before) =
      reportsOf (new.replay (before ++ .start :: middle)).log (runsStarted before) := by
  have hshape : before ++ Event.start :: (middle ++ call :: tail) =
      (before ++ .start :: middle) ++ call :: tail := by simp
  rw [hshape] at legal ⊢
  obtain ⟨hlegal, hallowed, -⟩ := legal_append.1 legal
  have hsound : (new.replay (before ++ .start :: middle)).Sound := sound_new.replay hlegal
  obtain ⟨run, hrun⟩ := exists_follows_start before middle
  have hid := (List.getElem?_eq_some_iff.1 hrun.getElem?).1
  obtain ⟨cancelled, hcancelled⟩ := exists_follows_after hrun.getElem? call
  have hover := hsound.isOver_of_cancels hallowed cancels hid hcancelled.getElem?
  obtain ⟨final, hfinal⟩ := exists_follows_replay hcancelled.getElem? tail
  rw [replay_append, replay_cons, (hfinal.isOver hover).2, log_after_of_cancels cancels]

/-- A run that is awaited before any other call has reported its whole path when the wait returns,
and no more later. -/
theorem reportsOf_of_awaited {before playing waiting tail : List Event}
    (steps : ∀ event ∈ playing ++ waiting, event.IsStep)
    (legal : new.Legal (before ++ .start :: (playing ++ .await :: (waiting ++ .leave :: tail)))) :
    reportsOf
      (new.replay (before ++ .start :: (playing ++ .await :: (waiting ++ .leave :: tail)))).log
      (runsStarted before) = loadedPath before := by
  have hshape : before ++ Event.start :: (playing ++ .await :: (waiting ++ .leave :: tail)) =
      (before ++ .start :: (playing ++ .await :: waiting)) ++ .leave :: tail := by simp
  rw [hshape] at legal ⊢
  obtain ⟨hlegal, ⟨id, hawaited, run, hrun, finished⟩, -⟩ := legal_append.1 legal
  have hsound := sound_new.replay hlegal
  have hid : id = runsStarted before := by
    have hactive := (after_start (new.replay before)).2
    have hplaying := attended_replay_of_steps (fun e he => steps e (List.mem_append_left _ he))
      ((new.replay before).after .start)
    have hwaiting := attended_replay_of_steps (fun e he => steps e (List.mem_append_right _ he))
      ((((new.replay before).after .start).replay playing).after .await)
    rw [replay_append, replay_cons, replay_append, replay_cons, hwaiting.2] at hawaited
    have hawait : (((new.replay before).after .start).replay playing).player.active = some id :=
      hawaited
    rw [hplaying.1, hactive, length_runs_replay, Option.some.injEq] at hawait
    exact hawait.symm
  subst hid
  obtain ⟨same, hsame⟩ := exists_follows_start before (playing ++ .await :: waiting)
  obtain rfl : run = same := Option.some.inj (hrun.symm.trans hsame.getElem?)
  have hwhole := hsound.reports_whole hrun (.inr hawaited) finished
  have hover : run.isOver = true := by simp [Run.isOver, finished]
  obtain ⟨final, hfinal⟩ := exists_follows_replay hrun (.leave :: tail)
  rw [replay_append, (hfinal.isOver hover).2, hwhole, hsame.path]
  rfl

/-- A run comes to its end if it only steps often enough. -/
theorem exists_allows_leave {id : Nat} {run : Run} (awaited : s.player.awaited = some id)
    (hrun : s.player.runs[id]? = some run) :
    ∃ n, (s.replay (List.replicate n (.step id))).Allows .leave := by
  induction hleft : run.remaining.length using Nat.strongRecOn generalizing s run with
  | ind left ih =>
    have hawaited : (s.after (.step id)).player.awaited = some id :=
      (attended_after_step s id).2.trans awaited
    have hstepped : (s.after (.step id)).player.runs[id]? = some run.step.1 := by
      rw [after_step_of_some hrun]
      exact List.getElem?_set_self (List.getElem?_eq_some_iff.1 hrun).1
    rcases run.finished_or_remaining_lt_step with finished | hlt
    · exact ⟨1, id, hawaited, run.step.1, hstepped, finished⟩
    · obtain ⟨n, hn⟩ := ih _ (hleft ▸ hlt) hawaited hstepped rfl
      exact ⟨n + 1, hn⟩

/-- What a run reports that starts between two parts of a history. -/
structure RunReports (before rest : List Event) : Prop where
  /-- It reports the path of the moment when it started, from the first position on. -/
  front : reportsOf (new.replay (before ++ .start :: rest)).log (runsStarted before) <+:
    loadedPath before
  /-- The next call that cancels ends its reports. -/
  silent : ∀ middle call tail, rest = middle ++ call :: tail → call.Cancels →
    reportsOf (new.replay (before ++ .start :: rest)).log (runsStarted before) =
      reportsOf (new.replay (before ++ .start :: middle)).log (runsStarted before)
  /-- If a wait comes first and returns, the whole path was reported. -/
  whole : ∀ playing waiting tail, rest = playing ++ .await :: (waiting ++ .leave :: tail) →
    (∀ event ∈ playing ++ waiting, event.IsStep) →
    reportsOf (new.replay (before ++ .start :: rest)).log (runsStarted before) = loadedPath before

/-- In every legal history the path is the one loaded last unless it was emptied since, runs report
in the order in which they started, and a wait returns after enough steps of its run. -/
theorem reports_of_legal (events : List Event) (legal : new.Legal events) :
    (new.replay events).player.path = loadedPath events ∧
      (∀ entry ∈ (new.replay events).log, entry.1 < runsStarted events) ∧
      ((new.replay events).log.map Prod.fst).Pairwise (· ≤ ·) ∧
      (∀ before rest, events = before ++ .start :: rest → RunReports before rest) ∧
      ∀ id, (new.replay events).player.awaited = some id →
        ∃ n, ((new.replay events).replay (List.replicate n (.step id))).Allows .leave := by
  have hsound : (new.replay events).Sound := sound_new.replay legal
  refine ⟨path_replay events, ?_, hsound.ordered, ?_, ?_⟩
  · intro entry hentry
    rw [← length_runs_replay]
    exact hsound.known entry hentry
  · rintro before rest rfl
    refine ⟨?_, ?_, ?_⟩
    · obtain ⟨later, hlater⟩ := exists_follows_start before rest
      have hprefix := hsound.reports_prefix hlater.getElem?
      rwa [hlater.path] at hprefix
    · rintro middle call tail rfl cancels
      exact reportsOf_of_cancelled cancels legal
    · rintro playing waiting tail rfl steps
      exact reportsOf_of_awaited steps legal
  · intro id awaited
    have hlatest := hsound.latest id (.inr awaited)
    have hlt : id < (new.replay events).player.runs.length := by omega
    exact exists_allows_leave awaited (List.getElem?_eq_getElem hlt)

/-- A run paused after one position, and another awaited to its end. -/
def pausedAndAwaited : List Event :=
  [.load "G0 X1 Z2\nG1 X3\nG1 Z5\n", .start, .step 0, .pause, .step 0, .start, .step 1, .await,
    .step 1, .step 1, .leave]

/-- The second run starts over from the first position. -/
theorem reports_pausedAndAwaited :
    new.Legal pausedAndAwaited ∧
      reportsOf (new.replay pausedAndAwaited).log 0 = [⟨1, 2⟩] ∧
      reportsOf (new.replay pausedAndAwaited).log 1 = [⟨1, 2⟩, ⟨3, 2⟩, ⟨3, 5⟩] := by
  have legal : new.Legal pausedAndAwaited := by decide +kernel
  obtain ⟨-, -, -, runs, -⟩ := reports_of_legal pausedAndAwaited legal
  have first := runs (pausedAndAwaited.take 1) (pausedAndAwaited.drop 2) rfl
  have second := runs (pausedAndAwaited.take 5) (pausedAndAwaited.drop 6) rfl
  refine ⟨legal, ?_, ?_⟩
  · refine (first.silent [.step 0] .pause (pausedAndAwaited.drop 4) rfl trivial).trans ?_
    decide +kernel
  · refine (second.whole [.step 1] [.step 1, .step 1] [] rfl (by decide)).trans ?_
    decide +kernel

end Session

end Turnery.Playback
