import Turnery.Playback.Interval
import Turnery.Playback.Player

/-!
# Playback in time

A timeline drives a player by a clock that moves only while someone sleeps or waits. The first
position of a run falls due as soon as time may pass, each further one an interval after the one
before; intervals count in whole milliseconds.
-/

namespace Turnery.Playback

open Gcode (Waypoint)

/-- A player and its clock, in milliseconds. -/
structure Timeline where
  player : Player
  now : Nat
  /-- The interval of the current run. -/
  pace : Nat
  /-- When the next position of the current run falls due; not set before the run begins. -/
  due : Option Nat

namespace Timeline

def new : Timeline := ⟨.new, 0, 0, none⟩

/-- Replaces the path by the waypoints of a program. -/
def load (t : Timeline) (program : String) : Timeline :=
  { t with player := t.player.load (Waypoint.path program) }

/-- Starts a run whose positions are an interval apart. -/
def start (t : Timeline) (interval : Nat) : Timeline :=
  { t with player := t.player.start, pace := wholeMillis interval, due := none }

def pause (t : Timeline) : Timeline :=
  { t with player := t.player.pause }

def stop (t : Timeline) : Timeline :=
  { t with player := t.player.stop }

/-- A moment is not after the limit; without a limit every moment is. -/
def isReached (limit : Option Nat) (moment : Nat) : Bool :=
  match limit with
  | none => true
  | some last => moment ≤ last

/-- Takes the steps of a run that fall due up to a limit, at most as many as given, and lists each
with its time. -/
def advance (limit : Option Nat) (id : Nat) : Nat → Timeline → Timeline × List (Nat × Waypoint)
  | 0, t => (t, [])
  | more + 1, t =>
    let due := t.due.getD t.now
    if isReached limit due && t.player.isRunning then
      let (player, report) := t.player.step id
      let (t, reports) :=
        advance limit id more { t with player := player, due := some (due + t.pace) }
      (t, report.toList.map (due, ·) ++ reports)
    else ({ t with due := some due }, [])

/-- Lets the current run go on up to a limit. -/
def play (limit : Option Nat) (t : Timeline) : Timeline × List (Nat × Waypoint) :=
  match t.player.active with
  | none => (t, [])
  | some id => advance limit id (t.player.path.length + 1) t

/-- Lets a time pass. -/
def sleep (t : Timeline) (millis : Nat) : Timeline × List Waypoint :=
  let stop := t.now + millis
  let (t, reports) := t.play (some stop)
  ({ t with now := stop }, reports.map Prod.snd)

/-- Waits for the end of the current run. -/
def wait (t : Timeline) : Timeline × List Waypoint :=
  let (t, reports) := t.play none
  let now := (reports.getLast?.map Prod.fst).getD t.now
  ({ t with player := t.player.await.leave, now := now }, reports.map Prod.snd)

end Timeline

end Turnery.Playback
