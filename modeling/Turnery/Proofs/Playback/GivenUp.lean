import Mathlib.Data.List.Induction
import Turnery.Proofs.Playback.Reports

/-!
# Waits that are given up

The owner may lose patience and end a wait while its run goes on. `Session.Permitted` says which
histories can happen then. A run whose wait was given up is out of reach: no call can cancel it any
more, and it goes on until its whole path is reported. All other runs are kept as before, by the
invariant `Session.Tended` with these runs as the loose ones: at most one of them can report, and
any call that cancels silences it.
-/

namespace Turnery.Playback

open Gcode (Waypoint)

namespace Run

/-- A run that was not cancelled reports at its next step unless its whole path is reported. -/
theorem Accounts.report_ne_none_iff {run : Run} {reports : List Waypoint} (h : run.Accounts reports)
    (alive : run.cancelled = false) : run.step.2 ≠ none ↔ reports ≠ run.path := by
  cases hover : run.isOver with
  | true =>
    have hfinished : run.finished = true := by simpa [isOver, alive] using hover
    have hwhole : reports = run.path := by
      rw [h.reports_eq, h.whole hfinished alive, List.take_length]
    rw [step_of_isOver hover]
    simp [hwhole]
  | false =>
    cases hrest : run.remaining with
    | nil =>
      have hwhole : reports = run.path := by
        rw [h.reports_eq]
        exact List.take_of_length_le (List.drop_eq_nil_iff.1 hrest)
      rw [step_of_remaining_nil hover hrest]
      simp [hwhole]
    | cons position rest =>
      have hpart : reports ≠ run.path := by
        intro hwhole
        have hlength : run.path.length ≤ run.reported := by
          have := congrArg List.length (hwhole.symm.trans h.reports_eq)
          rw [List.length_take] at this
          omega
        rw [remaining, List.drop_eq_nil_of_le hlength] at hrest
        cases hrest
      rw [step_of_remaining_cons hover hrest]
      simp [hpart]

end Run

namespace Session

variable {s : Session}

/-- As `Allows`, but a wait may end at any time. -/
def Permits (s : Session) : Event → Prop
  | .leave => s.player.awaited ≠ none
  | event => s.Allows event

/-- Every event of the history can happen when it happens, waits being given up at will. -/
def Permitted : Session → List Event → Prop
  | _, [] => True
  | s, event :: events => s.Permits event ∧ (s.after event).Permitted events

/-- The run would report a position if it took a step. -/
def CanReport (s : Session) (id : Nat) : Prop :=
  ∃ run ∈ s.player.runs[id]?, run.step.2 ≠ none

/-- A wait for the run ended before the run was over. -/
def GivenUp (events : List Event) (id : Nat) : Prop :=
  ∃ before later, events = before ++ .leave :: later ∧
    (new.replay before).player.awaited = some id ∧
    ∃ run ∈ (new.replay before).player.runs[id]?, run.isOver = false

instance (s : Session) : (event : Event) → Decidable (s.Permits event)
  | .step _ => isTrue trivial
  | .leave => inferInstanceAs (Decidable (s.player.awaited ≠ none))
  | .load _ | .start | .pause | .stop | .await =>
    inferInstanceAs (Decidable (s.player.awaited = none))

instance decidablePermitted : (s : Session) → (events : List Event) → Decidable (s.Permitted events)
  | _, [] => isTrue trivial
  | s, event :: events =>
    have := decidablePermitted (s.after event) events
    inferInstanceAs (Decidable (_ ∧ _))

instance (s : Session) (id : Nat) : Decidable (s.CanReport id) :=
  inferInstanceAs (Decidable (∃ run ∈ s.player.runs[id]?, run.step.2 ≠ none))

theorem permitted_append {front back : List Event} :
    s.Permitted (front ++ back) ↔ s.Permitted front ∧ (s.replay front).Permitted back := by
  induction front generalizing s with
  | nil => simp [Permitted]
  | cons event front ih => simp [Permitted, ih, and_assoc]

theorem allows_of_permits {event : Event} (permitted : s.Permits event) (stays : event ≠ .leave) :
    s.Allows event := by
  cases event with
  | leave => exact absurd rfl stays
  | load | start | pause | stop | await | step => exact permitted

theorem not_givenUp_nil (id : Nat) : ¬GivenUp [] id := by
  rintro ⟨before, later, hempty, -⟩
  simp at hempty

/-- Whatever happens afterwards, the run was given up. -/
theorem GivenUp.append {events : List Event} {id : Nat} (h : GivenUp events id)
    (more : List Event) :
    GivenUp (events ++ more) id := by
  obtain ⟨before, later, rfl, hrun⟩ := h
  exact ⟨before, later ++ more, by simp, hrun⟩

/-- The last event gives a run up only as the end of a wait. -/
theorem givenUp_concat_iff {events : List Event} {event : Event} {id : Nat} :
    GivenUp (events ++ [event]) id ↔
      GivenUp events id ∨ event = .leave ∧ (new.replay events).player.awaited = some id ∧
        ∃ run ∈ (new.replay events).player.runs[id]?, run.isOver = false := by
  constructor
  · rintro ⟨before, later, hshape, hrun⟩
    rcases List.eq_nil_or_concat later with rfl | ⟨later, last, rfl⟩
    · obtain ⟨rfl, hlast⟩ := List.append_inj' hshape rfl
      exact .inr ⟨List.singleton_inj.1 hlast, hrun⟩
    · have hshape : events ++ [event] = (before ++ .leave :: later) ++ [last] := by
        simpa using hshape
      obtain ⟨rfl, -⟩ := List.append_inj' hshape rfl
      exact .inl ⟨before, later, rfl, hrun⟩
  · rintro (h | ⟨rfl, hrun⟩)
    · exact h.append _
    · exact ⟨events, [], rfl, hrun⟩

/-- Giving waits up leaves a session tended but for the runs that were waited for. -/
theorem tended_replay {events : List Event} (permitted : new.Permitted events) :
    Tended (GivenUp events) (new.replay events) := by
  induction events using List.reverseRecOn with
  | nil =>
    exact tended_new.restrict (fun id h => absurd h (not_givenUp_nil id)) fun _ _ _ h => h.elim
  | append_singleton events event ih =>
    obtain ⟨hpermitted, hpermits, -⟩ := permitted_append.1 permitted
    have htended := ih hpermitted
    rw [replay_append]
    by_cases hleave : event = .leave
    · subst hleave
      obtain ⟨id, awaited⟩ := Option.ne_none_iff_exists'.1 hpermits
      have hsame : ∀ other, (GivenUp events other ∨
          other = id ∧ ∃ run ∈ (new.replay events).player.runs[id]?, run.isOver = false) ↔
            GivenUp (events ++ [.leave]) other := by
        intro other
        rw [givenUp_concat_iff, awaited]
        refine or_congr_right ⟨?_, ?_⟩
        · rintro ⟨rfl, hrun⟩
          exact ⟨rfl, rfl, hrun⟩
        · rintro ⟨-, hother, hrun⟩
          obtain rfl := Option.some.inj hother
          exact ⟨rfl, hrun⟩
      exact (htended.leave awaited).restrict (fun other => (hsame other).2)
        fun other _ _ hwide hloose => absurd ((hsame other).1 hwide) hloose
    · have hsame : ∀ other, GivenUp (events ++ [event]) other ↔ GivenUp events other := by
        intro other
        simp [givenUp_concat_iff, hleave]
      exact (htended.after (allows_of_permits hpermits hleave) hleave).restrict
        (fun other => (hsame other).1)
        fun other _ _ hwide hloose => absurd ((hsame other).2 hwide) hloose

theorem Tended.attends_of_canReport {loose : Nat → Prop} (h : Tended loose s) {id : Nat}
    (reports : s.CanReport id) (kept : ¬loose id) : s.player.Attends id := by
  obtain ⟨run, hrun, hreport⟩ := reports
  refine Classical.byContradiction fun hnot => hreport ?_
  rw [Run.step_of_isOver (h.isOver id run hrun hnot kept)]

theorem not_canReport_of_isOver {id : Nat} {run : Run} (hrun : s.player.runs[id]? = some run)
    (hover : run.isOver = true) : ¬s.CanReport id := by
  rintro ⟨same, hsame, hreport⟩
  obtain rfl : run = same := Option.some.inj (hrun.symm.trans hsame)
  rw [Run.step_of_isOver hover] at hreport
  exact hreport rfl

/-- A call that cancels silences every earlier run for good, those given up apart. -/
theorem silent_of_cancels {events rest : List Event} {call : Event} (cancels : call.Cancels)
    (permitted : new.Permitted (events ++ call :: rest)) {id : Nat}
    (started : id < runsStarted events) (kept : ¬GivenUp events id) :
    ¬(new.replay (events ++ call :: rest)).CanReport id ∧
      reportsOf (new.replay (events ++ call :: rest)).log id =
        reportsOf (new.replay events).log id := by
  obtain ⟨hevents, hcall, -⟩ := permitted_append.1 permitted
  have hstays : call ≠ .leave := by
    rintro rfl
    exact cancels
  have hallowed := allows_of_permits hcall hstays
  have hid : id < (new.replay events).player.runs.length := by rwa [length_runs_replay]
  have htended := (tended_replay hevents).after hallowed hstays
  obtain ⟨cancelled, hcancelled⟩ := exists_follows_after (List.getElem?_eq_getElem hid) call
  have hover := htended.isOver id cancelled hcancelled.getElem?
    (not_attends_of_cancels (free_of_cancels hallowed cancels) cancels hid) kept
  obtain ⟨final, hfinal⟩ := exists_follows_replay hcancelled.getElem? rest
  obtain ⟨hover', hsame⟩ := hfinal.isOver hover
  rw [replay_append, replay_cons]
  exact ⟨not_canReport_of_isOver hfinal.getElem? hover',
    hsame.trans (by rw [log_after_of_cancels cancels])⟩

/-- In every history in which waits may be given up, at most one run can report that was not given
up, and every call that cancels silences all of those that were there; but a run that was given up
can report until its whole path is reported, whatever was called since. -/
theorem canReport_of_permitted (events : List Event) (permitted : new.Permitted events) :
    (∀ id other, (new.replay events).CanReport id → (new.replay events).CanReport other →
      ¬GivenUp events id → ¬GivenUp events other → id = other) ∧
      (∀ before call rest, events = before ++ call :: rest → call.Cancels →
        ∀ id < runsStarted before, ¬GivenUp before id → ¬(new.replay events).CanReport id ∧
          reportsOf (new.replay events).log id = reportsOf (new.replay before).log id) ∧
      ∀ id, GivenUp events id → ∃ run ∈ (new.replay events).player.runs[id]?,
        run.cancelled = false ∧
          ((new.replay events).CanReport id ↔ reportsOf (new.replay events).log id ≠ run.path) := by
  have htended := tended_replay permitted
  refine ⟨?_, ?_, ?_⟩
  · intro id other hid hother hkept hkept'
    have hlatest := htended.latest id (htended.attends_of_canReport hid hkept)
    have hlatest' := htended.latest other (htended.attends_of_canReport hother hkept')
    omega
  · rintro before call rest rfl cancels id started kept
    exact silent_of_cancels cancels permitted started kept
  · intro id hgivenUp
    have hlt := (htended.unattended id hgivenUp).1
    have hrun := List.getElem?_eq_getElem hlt
    have halive := htended.alive id _ hrun (.inr hgivenUp)
    have hiff := (htended.accounts id _ hrun).report_ne_none_iff halive
    refine ⟨_, hrun, halive, ?_, fun hpart => ⟨_, hrun, hiff.2 hpart⟩⟩
    rintro ⟨same, hsame, hreport⟩
    obtain rfl := Option.some.inj (hrun.symm.trans hsame)
    exact hiff.1 hreport

/-- A wait given up after one position, then another run. -/
def givenUpOnce : List Event :=
  [.load "G0 X1 Z2\nG1 X3\nG1 Z5\n", .start, .step 0, .await, .leave, .start]

/-- Cancelling the second run leaves the first one reporting. -/
theorem canReport_givenUpOnce :
    new.Permitted (givenUpOnce ++ [.pause]) ∧ ¬(new.replay (givenUpOnce ++ [.pause])).CanReport 1 ∧
      ∃ run ∈ (new.replay (givenUpOnce ++ [.pause])).player.runs[0]?, run.cancelled = false := by
  have permitted : new.Permitted (givenUpOnce ++ [.pause]) := by decide +kernel
  obtain ⟨-, silent, goesOn⟩ := canReport_of_permitted (givenUpOnce ++ [.pause]) permitted
  have hgivenUp : GivenUp (givenUpOnce ++ [.pause]) 0 := by
    refine ⟨givenUpOnce.take 4, [.start, .pause], rfl, rfl, ?_⟩
    decide +kernel
  have hkept : ¬GivenUp givenUpOnce 1 := by
    intro hgivenUp
    have := ((tended_replay (permitted_append.1 permitted).1).unattended 1 hgivenUp).2
    exact this (.inl (by decide +kernel))
  obtain ⟨run, hrun, halive, -⟩ := goesOn 0 hgivenUp
  exact ⟨permitted, (silent givenUpOnce .pause [] rfl trivial 1 (by decide) hkept).1, run,
    hrun, halive⟩

/-- Two runs can report at once, and the first of them even after a pause. -/
theorem exists_two_reporting :
    new.Permitted (givenUpOnce ++ [.pause]) ∧ (new.replay givenUpOnce).CanReport 0 ∧
      (new.replay givenUpOnce).CanReport 1 ∧
        (new.replay (givenUpOnce ++ [.pause])).CanReport 0 := by
  decide +kernel

end Session

end Turnery.Playback
