import Turnery.Playback.Player

/-!
# Sessions of a player

A session is a player together with the log of everything its runs have reported. It goes on by
events: the calls of the player's owner and the steps of the runs, in any order. A wait is two
events, its beginning and its return, and whatever runs do meanwhile lies between them.
`Session.Legal` says which histories of events can happen: while the owner waits she makes no other
call, and the wait returns when the run is finished.

`Session.Sound` is what every legal history keeps. Its core is that a run which is neither under
control nor waited for is over, so that only the latest run can ever report. `Session.Tended` is the
part of it that is left where runs may get loose.
-/

namespace Turnery.Playback

open Gcode (Waypoint)

namespace Run

/-- What a run has reported fits its state: the front of its path that it has counted, and the whole
path once it has come to its end. -/
structure Accounts (run : Run) (reports : List Waypoint) : Prop where
  reports_eq : reports = run.path.take run.reported
  reported_le : run.reported ≤ run.path.length
  whole : run.finished = true → run.cancelled = false → run.reported = run.path.length

theorem accounts_ofPath (path : List Waypoint) : (ofPath path).Accounts [] where
  reports_eq := rfl
  reported_le := Nat.zero_le _
  whole h := by cases h

theorem Accounts.cancel {run : Run} {reports : List Waypoint} (h : run.Accounts reports) :
    run.cancel.Accounts reports where
  reports_eq := h.reports_eq
  reported_le := h.reported_le
  whole _ hc := by cases hc

theorem step_of_isOver {run : Run} (h : run.isOver = true) :
    run.step = ({ run with finished := true }, none) := by
  rw [step, if_pos h]

theorem step_of_remaining_nil {run : Run} (h : run.isOver = false) (hrest : run.remaining = []) :
    run.step = ({ run with finished := true }, none) := by
  rw [step, h]
  simp [hrest]

theorem step_of_remaining_cons {run : Run} {position : Waypoint} {rest : List Waypoint}
    (h : run.isOver = false) (hrest : run.remaining = position :: rest) :
    run.step =
      ({ run with reported := run.reported + 1, finished := rest.isEmpty }, some position) := by
  rw [step, h]
  simp [hrest]

@[simp] theorem path_step (run : Run) : run.step.1.path = run.path := by
  unfold step
  split
  · rfl
  · split <;> rfl

@[simp] theorem cancelled_step (run : Run) : run.step.1.cancelled = run.cancelled := by
  unfold step
  split
  · rfl
  · split <;> rfl

/-- A step reports the next position, if any, and nothing else. -/
theorem Accounts.step {run : Run} {reports : List Waypoint} (h : run.Accounts reports) :
    run.step.1.Accounts (reports ++ run.step.2.toList) := by
  cases hover : run.isOver with
  | true =>
    rw [step_of_isOver hover]
    refine ⟨by simpa using h.reports_eq, h.reported_le, fun _ hc => ?_⟩
    have hfinished : run.finished = true := by
      have hc : run.cancelled = false := hc
      simpa [isOver, hc] using hover
    exact h.whole hfinished hc
  | false =>
    cases hrest : run.remaining with
    | nil =>
      rw [step_of_remaining_nil hover hrest]
      refine ⟨by simpa using h.reports_eq, h.reported_le, fun _ _ => ?_⟩
      exact Nat.le_antisymm h.reported_le (List.drop_eq_nil_iff.1 hrest)
    | cons position rest =>
      rw [step_of_remaining_cons hover hrest]
      have hlt : run.reported < run.path.length := by
        refine Nat.lt_of_not_le fun hle => ?_
        rw [remaining, List.drop_eq_nil_of_le hle] at hrest
        cases hrest
      have hdrop : run.path.drop run.reported = position :: rest := hrest
      rw [List.drop_eq_getElem_cons hlt, List.cons.injEq] at hdrop
      refine ⟨?_, hlt, fun hempty _ => ?_⟩
      · rw [h.reports_eq, ← hdrop.1]
        exact List.take_append_getElem hlt
      · have hnil : run.path.drop (run.reported + 1) = [] := by
          rw [hdrop.2]
          exact List.isEmpty_iff.1 hempty
        exact Nat.le_antisymm hlt (List.drop_eq_nil_iff.1 hnil)

/-- A step brings a run to its end or nearer to it. -/
theorem finished_or_remaining_lt_step (run : Run) :
    run.step.1.finished = true ∨ run.step.1.remaining.length < run.remaining.length := by
  cases hover : run.isOver with
  | true =>
    rw [step_of_isOver hover]
    exact .inl rfl
  | false =>
    cases hrest : run.remaining with
    | nil =>
      rw [step_of_remaining_nil hover hrest]
      exact .inl rfl
    | cons position rest =>
      rw [step_of_remaining_cons hover hrest]
      refine .inr ?_
      have hlength : (run.path.drop run.reported).length = rest.length + 1 :=
        congrArg List.length hrest
      rw [List.length_drop] at hlength
      have hlt : (run.path.drop (run.reported + 1)).length < rest.length + 1 := by
        rw [List.length_drop]
        omega
      exact hlt

/-- What is over stays over. -/
theorem isOver_step {run : Run} (h : run.isOver = true) : run.step.1.isOver = true := by
  rw [step_of_isOver h]
  simp [isOver]

theorem isOver_cancel (run : Run) : run.cancel.isOver = true := by
  simp [isOver, cancel]

end Run

namespace Player

/-- The run is under control or waited for. -/
def Attends (player : Player) (id : Nat) : Prop :=
  player.active = some id ∨ player.awaited = some id

@[simp] theorem active_cancelActive (player : Player) : player.cancelActive.active = none := by
  unfold cancelActive
  split
  · assumption
  · rfl

@[simp] theorem awaited_cancelActive (player : Player) :
    player.cancelActive.awaited = player.awaited := by
  unfold cancelActive
  split <;> rfl

@[simp] theorem path_cancelActive (player : Player) : player.cancelActive.path = player.path := by
  unfold cancelActive
  split <;> rfl

@[simp] theorem length_runs_cancelActive (player : Player) :
    player.cancelActive.runs.length = player.runs.length := by
  unfold cancelActive
  split
  · rfl
  · exact List.length_modify _ _ _

/-- Cancelling touches the run under control and no other. -/
theorem getElem?_runs_cancelActive (player : Player) (id : Nat) :
    player.cancelActive.runs[id]? =
      player.runs[id]?.map fun run => if player.active = some id then run.cancel else run := by
  unfold cancelActive
  split
  · rename_i hactive
    simp [hactive]
  · rename_i active hactive
    simp [hactive, List.getElem?_modify]

end Player

/-- What can happen next: a call of the owner, the return of a wait, or a step of a run. -/
inductive Event where
  | load (program : String)
  | start
  | pause
  | stop
  | await
  | leave
  | step (id : Nat)
  deriving DecidableEq

/-- A player and what its runs have reported so far, each position with the number of its run. -/
structure Session where
  player : Player
  log : List (Nat × Waypoint)

/-- What a run has reported, in order. -/
def reportsOf (log : List (Nat × Waypoint)) (id : Nat) : List Waypoint :=
  (log.filter fun entry => entry.1 == id).map Prod.snd

namespace Session

def new : Session := ⟨.new, []⟩

def after (s : Session) : Event → Session
  | .load program => { s with player := s.player.load (Waypoint.path program) }
  | .start => { s with player := s.player.start }
  | .pause => { s with player := s.player.pause }
  | .stop => { s with player := s.player.stop }
  | .await => { s with player := s.player.await }
  | .leave => { s with player := s.player.leave }
  | .step id =>
    let (player, report) := s.player.step id
    ⟨player, s.log ++ report.toList.map (id, ·)⟩

/-- Runs take their steps at any time. The owner makes no call while she waits, and a wait returns
when its run is finished. -/
def Allows (s : Session) : Event → Prop
  | .step _ => True
  | .leave => ∃ id ∈ s.player.awaited, ∃ run ∈ s.player.runs[id]?, run.finished = true
  | _ => s.player.awaited = none

/-- The session after a history of events. -/
def replay (s : Session) (events : List Event) : Session :=
  events.foldl after s

/-- Every event of the history can happen when it happens. -/
def Legal : Session → List Event → Prop
  | _, [] => True
  | s, event :: events => s.Allows event ∧ (s.after event).Legal events

instance (s : Session) : (event : Event) → Decidable (s.Allows event)
  | .step _ => isTrue trivial
  | .leave => inferInstanceAs (Decidable (∃ id ∈ s.player.awaited, ∃ run ∈ s.player.runs[id]?, _))
  | .load _ | .start | .pause | .stop | .await =>
    inferInstanceAs (Decidable (s.player.awaited = none))

instance decidableLegal : (s : Session) → (events : List Event) → Decidable (s.Legal events)
  | _, [] => isTrue trivial
  | s, event :: events =>
    have := decidableLegal (s.after event) events
    inferInstanceAs (Decidable (_ ∧ _))

@[simp] theorem replay_nil (s : Session) : s.replay [] = s := rfl

@[simp] theorem replay_cons (s : Session) (event : Event) (events : List Event) :
    s.replay (event :: events) = (s.after event).replay events := rfl

theorem replay_append (s : Session) (front back : List Event) :
    s.replay (front ++ back) = (s.replay front).replay back :=
  List.foldl_append

theorem legal_append {s : Session} {front back : List Event} :
    s.Legal (front ++ back) ↔ s.Legal front ∧ (s.replay front).Legal back := by
  induction front generalizing s with
  | nil => simp [Legal]
  | cons event front ih => simp [Legal, ih, and_assoc]

end Session

theorem reportsOf_append_report (log : List (Nat × Waypoint)) (stepping id : Nat)
    (report : Option Waypoint) :
    reportsOf (log ++ report.toList.map (stepping, ·)) id =
      reportsOf log id ++ if stepping = id then report.toList else [] := by
  cases report with
  | none => simp [reportsOf]
  | some position => by_cases h : stepping = id <;> simp [reportsOf, h]

theorem reportsOf_eq_nil {log : List (Nat × Waypoint)} {id : Nat}
    (h : ∀ entry ∈ log, entry.1 < id) :
    reportsOf log id = [] := by
  have hfilter : (log.filter fun entry => entry.1 == id) = [] := by
    rw [List.filter_eq_nil_iff]
    intro entry hentry
    have := h entry hentry
    simp only [beq_iff_eq]
    omega
  rw [reportsOf, hfilter, List.map_nil]

namespace Session

/-- What sessions keep even if runs get loose: a loose run is neither under control nor waited for,
and still not over. -/
structure Tended (loose : Nat → Prop) (s : Session) : Prop where
  /-- Only the latest run is under control or waited for. -/
  latest : ∀ id, s.player.Attends id → id + 1 = s.player.runs.length
  exclusive : ∀ id, s.player.awaited = some id → s.player.active = none
  unattended : ∀ id, loose id → id < s.player.runs.length ∧ ¬s.player.Attends id
  alive : ∀ id run, s.player.runs[id]? = some run → s.player.Attends id ∨ loose id →
    run.cancelled = false
  /-- Any other run is over. -/
  isOver : ∀ id run, s.player.runs[id]? = some run → ¬s.player.Attends id → ¬loose id →
    run.isOver = true
  accounts : ∀ id (run : Run), s.player.runs[id]? = some run → run.Accounts (reportsOf s.log id)
  known : ∀ entry ∈ s.log, entry.1 < s.player.runs.length

/-- The invariant of sessions in which no run gets loose. -/
structure Sound (s : Session) : Prop extends Tended (fun _ => False) s where
  ordered : (s.log.map Prod.fst).Pairwise (· ≤ ·)

variable {s : Session} {loose : Nat → Prop}

theorem tended_new : Tended (fun _ => False) new where
  latest id h := by simp [new, Player.new, Player.Attends] at h
  exclusive id h := rfl
  unattended _ h := h.elim
  alive id run h := by simp [new, Player.new] at h
  isOver id run h := by simp [new, Player.new] at h
  accounts id run h := by simp [new, Player.new] at h
  known entry h := by cases h

theorem sound_new : new.Sound :=
  ⟨tended_new, .nil⟩

/-- Without a wait, cancelling leaves every run over that is not loose. -/
theorem Tended.cancelActive (h : Tended loose s) (free : s.player.awaited = none) :
    Tended loose ⟨s.player.cancelActive, s.log⟩ := by
  have unattended : ∀ id, ¬s.player.cancelActive.Attends id := by
    intro id hid
    simp [Player.Attends, free] at hid
  refine ⟨fun id hid => absurd hid (unattended id), fun _ _ => Player.active_cancelActive _, ?_, ?_,
    ?_, ?_, ?_⟩
  · intro id hid
    rw [Player.length_runs_cancelActive]
    exact ⟨(h.unattended id hid).1, unattended id⟩
  · intro id run hrun hid
    have hloose : loose id := hid.resolve_left (unattended id)
    rw [Player.getElem?_runs_cancelActive] at hrun
    obtain ⟨old, hold, rfl⟩ := Option.map_eq_some_iff.1 hrun
    rw [if_neg fun hactive => (h.unattended id hloose).2 (.inl hactive)]
    exact h.alive id old hold (.inr hloose)
  · intro id run hrun _ hloose
    rw [Player.getElem?_runs_cancelActive] at hrun
    obtain ⟨old, hold, rfl⟩ := Option.map_eq_some_iff.1 hrun
    split
    · exact old.isOver_cancel
    · rename_i hactive
      refine h.isOver id old hold ?_ hloose
      rintro (hid | hid)
      · exact hactive hid
      · rw [free] at hid
        cases hid
  · intro id run hrun
    rw [Player.getElem?_runs_cancelActive] at hrun
    obtain ⟨old, hold, rfl⟩ := Option.map_eq_some_iff.1 hrun
    split
    · exact (h.accounts id old hold).cancel
    · exact h.accounts id old hold
  · intro entry hentry
    rw [Player.length_runs_cancelActive]
    exact h.known entry hentry

/-- The path matters only to runs that start later. -/
theorem Tended.setPath (h : Tended loose s) (path : List Waypoint) :
    Tended loose ⟨{ s.player with path := path }, s.log⟩ :=
  ⟨h.latest, h.exclusive, h.unattended, h.alive, h.isOver, h.accounts, h.known⟩

/-- A run started when no other is attended becomes the only one attended. -/
theorem Tended.startRun (h : Tended loose s) (idle : s.player.active = none)
    (free : s.player.awaited = none) :
    Tended loose ⟨{ s.player with
      runs := s.player.runs ++ [Run.ofPath s.player.path], active := some s.player.runs.length },
        s.log⟩ := by
  have old_or_new : ∀ {id : Nat} {run : Run},
      (s.player.runs ++ [Run.ofPath s.player.path])[id]? = some run →
      s.player.runs[id]? = some run ∨ id = s.player.runs.length ∧
          run = Run.ofPath s.player.path := by
    intro id run hrun
    rcases Nat.lt_trichotomy id s.player.runs.length with hlt | rfl | hgt
    · rw [List.getElem?_append_left hlt] at hrun
      exact .inl hrun
    · rw [List.getElem?_concat_length, Option.some.injEq] at hrun
      exact .inr ⟨rfl, hrun.symm⟩
    · have hbound := (List.getElem?_eq_some_iff.1 hrun).1
      simp only [List.length_append, List.length_singleton] at hbound
      omega
  -- Only the new run is attended now, and no run was before.
  have attended : ∀ id, (s.player.active = none ∧ s.player.awaited = none) →
      (some s.player.runs.length = some id ∨ s.player.awaited = some id) →
          id = s.player.runs.length := by
    rintro id ⟨-, hfree⟩ (hid | hid)
    · exact (Option.some.inj hid).symm
    · rw [hfree] at hid
      cases hid
  refine ⟨?_, ?_, ?_, ?_, ?_, ?_, ?_⟩
  · intro id hid
    rw [attended id ⟨idle, free⟩ hid]
    simp
  · intro id hid
    rw [show s.player.awaited = some id from hid] at free
    cases free
  · intro id hid
    have hlt := (h.unattended id hid).1
    refine ⟨by simp only [List.length_append]; omega, fun hattends => ?_⟩
    have := attended id ⟨idle, free⟩ hattends
    omega
  · intro id run hrun hid
    rcases old_or_new hrun with hold | ⟨-, rfl⟩
    · have hlt := (List.getElem?_eq_some_iff.1 hold).1
      refine h.alive id run hold (.inr (hid.resolve_left fun hattends => ?_))
      have := attended id ⟨idle, free⟩ hattends
      omega
    · rfl
  · intro id run hrun hid hloose
    rcases old_or_new hrun with hold | ⟨rfl, -⟩
    · refine h.isOver id run hold ?_ hloose
      simp [Player.Attends, idle, free]
    · exact absurd (.inl rfl) hid
  · intro id run hrun
    rcases old_or_new hrun with hold | ⟨rfl, rfl⟩
    · exact h.accounts id run hold
    · rw [reportsOf_eq_nil h.known]
      exact Run.accounts_ofPath _
  · intro entry hentry
    have := h.known entry hentry
    simp only [List.length_append, List.length_singleton]
    omega

/-- The run under control becomes the one that is waited for. -/
theorem Tended.await (h : Tended loose s) (free : s.player.awaited = none) :
    Tended loose ⟨s.player.await, s.log⟩ := by
  have attends_iff : ∀ id, s.player.await.Attends id ↔ s.player.Attends id := by
    intro id
    simp [Player.Attends, Player.await, free]
  refine ⟨?_, fun _ _ => rfl, ?_, ?_, ?_, h.accounts, h.known⟩
  · exact fun id hid => h.latest id ((attends_iff id).1 hid)
  · exact fun id hid =>
      ⟨(h.unattended id hid).1, fun hattends => (h.unattended id hid).2
        ((attends_iff id).1 hattends)⟩
  · exact fun id run hrun hid => h.alive id run hrun (hid.imp_left (attends_iff id).1)
  · exact fun id run hrun hid => h.isOver id run hrun (fun hold => hid ((attends_iff id).2 hold))

/-- When a wait ends, the run that was waited for is over or gets loose. -/
theorem Tended.leave (h : Tended loose s) {id : Nat} (awaited : s.player.awaited = some id) :
    Tended (fun other => loose other ∨ other = id ∧ ∃ run ∈ s.player.runs[id]?, run.isOver = false)
      ⟨s.player.leave, s.log⟩ := by
  have idle := h.exclusive id awaited
  have unattended : ∀ other, ¬s.player.leave.Attends other := by
    intro other hother
    simp [Player.Attends, Player.leave, idle] at hother
  refine ⟨fun other hother => absurd hother (unattended other), fun _ _ => idle, ?_, ?_, ?_,
    h.accounts, h.known⟩
  · rintro other (hother | ⟨rfl, -⟩)
    · exact ⟨(h.unattended other hother).1, unattended other⟩
    · have := h.latest other (.inr awaited)
      exact ⟨show other < s.player.runs.length by omega, unattended other⟩
  · intro other run hrun hother
    obtain hother | ⟨rfl, -⟩ := hother.resolve_left (unattended other)
    · exact h.alive other run hrun (.inr hother)
    · exact h.alive other run hrun (.inl (.inr awaited))
  · intro other run hrun _ hloose
    rw [not_or] at hloose
    by_cases hsame : other = id
    · subst hsame
      exact Bool.of_not_eq_false fun hover => hloose.2 ⟨rfl, run, hrun, hover⟩
    · refine h.isOver other run hrun ?_ hloose.1
      rintro (hother | hother)
      · rw [idle] at hother
        cases hother
      · rw [awaited, Option.some.injEq] at hother
        exact hsame hother.symm

/-- Fewer runs may count as loose, as long as those left out are over. -/
theorem Tended.restrict {wide : Nat → Prop} (h : Tended wide s) (sub : ∀ id, loose id → wide id)
    (rest : ∀ id run, s.player.runs[id]? = some run → wide id → ¬loose id → run.isOver = true) :
    Tended loose s := by
  refine ⟨h.latest, h.exclusive, fun id hid => h.unattended id (sub id hid),
    fun id run hrun hid => h.alive id run hrun (hid.imp_right (sub id)), ?_, h.accounts, h.known⟩
  intro id run hrun hattends hloose
  by_cases hwide : wide id
  · exact rest id run hrun hwide hloose
  · exact h.isOver id run hrun hattends hwide

theorem after_step_of_none {id : Nat} (h : s.player.runs[id]? = none) : s.after (.step id) = s := by
  simp [after, Player.step, h]

theorem after_step_of_some {id : Nat} {run : Run} (h : s.player.runs[id]? = some run) :
    s.after (.step id) =
      ⟨{ s.player with runs := s.player.runs.set id run.step.1 },
        s.log ++ run.step.2.toList.map (id, ·)⟩ := by
  simp [after, Player.step, h]

theorem getElem?_runs_set {id other : Nat} {run stepped candidate : Run}
    (hrun : s.player.runs[id]? = some run)
    (h : (s.player.runs.set id stepped)[other]? = some candidate) :
    other = id ∧ candidate = stepped ∨ other ≠ id ∧ s.player.runs[other]? = some candidate := by
  have hlt := (List.getElem?_eq_some_iff.1 hrun).1
  by_cases hsame : id = other
  · subst hsame
    rw [List.getElem?_set_self hlt, Option.some.injEq] at h
    exact .inl ⟨rfl, h.symm⟩
  · rw [List.getElem?_set_ne hsame] at h
    exact .inr ⟨fun hother => hsame hother.symm, h⟩

theorem Tended.step (h : Tended loose s) (id : Nat) : Tended loose (s.after (.step id)) := by
  cases hrun : s.player.runs[id]? with
  | none => rwa [after_step_of_none hrun]
  | some run =>
    rw [after_step_of_some hrun]
    have hlt : id < s.player.runs.length := (List.getElem?_eq_some_iff.1 hrun).1
    refine ⟨?_, h.exclusive, ?_, ?_, ?_, ?_, ?_⟩
    · intro other hother
      rw [List.length_set]
      exact h.latest other hother
    · intro other hother
      rw [List.length_set]
      exact h.unattended other hother
    · intro other candidate hcandidate hother
      rcases getElem?_runs_set hrun hcandidate with ⟨rfl, rfl⟩ | ⟨-, hold⟩
      · rw [Run.cancelled_step]
        exact h.alive other run hrun hother
      · exact h.alive other candidate hold hother
    · intro other candidate hcandidate hother hloose
      rcases getElem?_runs_set hrun hcandidate with ⟨rfl, rfl⟩ | ⟨-, hold⟩
      · exact Run.isOver_step (h.isOver other run hrun hother hloose)
      · exact h.isOver other candidate hold hother hloose
    · intro other candidate hcandidate
      rw [reportsOf_append_report]
      rcases getElem?_runs_set hrun hcandidate with ⟨rfl, rfl⟩ | ⟨hne, hold⟩
      · rw [if_pos rfl]
        exact (h.accounts other run hrun).step
      · rw [if_neg (Ne.symm hne), List.append_nil]
        exact h.accounts other candidate hold
    · intro entry hentry
      rw [List.length_set]
      rcases List.mem_append.1 hentry with hentry | hentry
      · exact h.known entry hentry
      · obtain ⟨position, -, rfl⟩ := List.mem_map.1 hentry
        exact hlt

/-- Every event but the end of a wait leaves the same runs loose. -/
theorem Tended.after (h : Tended loose s) {event : Event} (allowed : s.Allows event)
    (stays : event ≠ .leave) :
    Tended loose (s.after event) := by
  cases event with
  | load program => exact (h.cancelActive allowed).setPath _
  | start =>
    have hcancelled := h.cancelActive allowed
    have free : s.player.cancelActive.awaited = none := by
      rw [Player.awaited_cancelActive]
      exact allowed
    exact hcancelled.startRun (Player.active_cancelActive _) free
  | pause => exact h.cancelActive allowed
  | stop => exact (h.cancelActive allowed).setPath _
  | await => exact h.await allowed
  | leave => exact absurd rfl stays
  | step id => exact h.step id

/-- A run that reports is attended. -/
theorem Sound.attends_of_report (h : s.Sound) {id : Nat} {run : Run} {position : Waypoint}
    (hrun : s.player.runs[id]? = some run) (hreport : run.step.2 = some position) :
    s.player.Attends id := by
  refine Classical.byContradiction fun hnot => ?_
  rw [Run.step_of_isOver (h.isOver id run hrun hnot not_false)] at hreport
  cases hreport

/-- The run that reports is the latest, so its report comes after those of all earlier runs. -/
theorem Sound.step (h : s.Sound) (id : Nat) : (s.after (.step id)).Sound := by
  refine ⟨h.toTended.step id, ?_⟩
  cases hrun : s.player.runs[id]? with
  | none =>
    rw [after_step_of_none hrun]
    exact h.ordered
  | some run =>
    rw [after_step_of_some hrun, List.map_append, List.pairwise_append]
    refine ⟨h.ordered, ?_, ?_⟩
    · cases run.step.2 <;> simp
    · intro earlier hearlier later hlater
      obtain ⟨entry, hentry, rfl⟩ := List.mem_map.1 hearlier
      have hknown := h.known entry hentry
      obtain ⟨report, hreport, rfl⟩ := List.mem_map.1 hlater
      obtain ⟨position, hposition, rfl⟩ := List.mem_map.1 hreport
      have := h.latest id (h.attends_of_report hrun (Option.mem_toList.1 hposition))
      omega

/-- A wait that returns leaves a run that is over. -/
theorem Sound.leave (h : s.Sound) (allowed : s.Allows .leave) : (s.after .leave).Sound := by
  obtain ⟨id, awaited, run, hrun, finished⟩ := allowed
  refine ⟨(h.toTended.leave awaited).restrict (fun _ hfalse => hfalse.elim) ?_, h.ordered⟩
  rintro other candidate hcandidate (hfalse | ⟨rfl, -⟩) -
  · exact hfalse.elim
  · obtain rfl : run = candidate := Option.some.inj (hrun.symm.trans hcandidate)
    simp [Run.isOver, finished]

/-- Every event that can happen keeps the invariant. -/
theorem Sound.after (h : s.Sound) {event : Event} (allowed : s.Allows event) :
    (s.after event).Sound := by
  cases event with
  | leave => exact h.leave allowed
  | step id => exact h.step id
  | load program => exact ⟨h.toTended.after allowed Event.noConfusion, h.ordered⟩
  | start => exact ⟨h.toTended.after allowed Event.noConfusion, h.ordered⟩
  | pause => exact ⟨h.toTended.after allowed Event.noConfusion, h.ordered⟩
  | stop => exact ⟨h.toTended.after allowed Event.noConfusion, h.ordered⟩
  | await => exact ⟨h.toTended.after allowed Event.noConfusion, h.ordered⟩

/-- Every legal history keeps the invariant. -/
theorem Sound.replay (h : s.Sound) {events : List Event} (legal : s.Legal events) :
    (s.replay events).Sound := by
  induction events generalizing s with
  | nil => exact h
  | cons event events ih => exact ih (h.after legal.1) legal.2

end Session

end Turnery.Playback
