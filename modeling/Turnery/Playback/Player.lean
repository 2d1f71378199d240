import Turnery.Gcode.Waypoint

/-!
# The player

A player holds a path and the runs that replay it. Each run is a task of its own that reports one
position per step, from the path as it was when the run started; before it reports, it looks whether
it was cancelled. The calls on the player and the steps of the runs can alternate in any order.
-/

namespace Turnery.Playback

open Gcode (Waypoint)

/-- A replay of a path. -/
structure Run where
  /-- The path that was loaded when the run started. -/
  path : List Waypoint
  /-- How many positions were reported. -/
  reported : Nat
  cancelled : Bool
  finished : Bool

namespace Run

def ofPath (path : List Waypoint) : Run := ⟨path, 0, false, false⟩

def remaining (run : Run) : List Waypoint :=
  run.path.drop run.reported

/-- Nothing will be reported any more. -/
def isOver (run : Run) : Bool :=
  run.cancelled || run.finished

def cancel (run : Run) : Run :=
  { run with cancelled := true }

/-- One step: a cancelled run ends, any other reports its next position and ends after the last. -/
def step (run : Run) : Run × Option Waypoint :=
  if run.isOver then ({ run with finished := true }, none)
  else
    match run.remaining with
    | [] => ({ run with finished := true }, none)
    | position :: rest =>
      ({ run with reported := run.reported + 1, finished := rest.isEmpty }, some position)

end Run

/-- A path, all runs ever started, the run under control and the run that is waited for. -/
structure Player where
  path : List Waypoint
  runs : List Run
  active : Option Nat
  awaited : Option Nat

namespace Player

def new : Player := ⟨[], [], none, none⟩

def activeRun? (player : Player) : Option Run :=
  player.active.bind fun id => player.runs[id]?

def cancelActive (player : Player) : Player :=
  match player.active with
  | none => player
  | some id => { player with runs := player.runs.modify id Run.cancel, active := none }

def load (player : Player) (path : List Waypoint) : Player :=
  { player.cancelActive with path := path }

/-- Starts a run over the path. -/
def start (player : Player) : Player :=
  let player := player.cancelActive
  { player with runs := player.runs ++ [Run.ofPath player.path], active := some player.runs.length }

/-- Cancels the run and keeps the path. -/
def pause (player : Player) : Player :=
  player.cancelActive

/-- Cancels the run and empties the path. -/
def stop (player : Player) : Player :=
  { player.cancelActive with path := [] }

/-- Gives up control over the run and waits for it. -/
def await (player : Player) : Player :=
  { player with active := none, awaited := player.active }

/-- Stops waiting, because the run ended or because the caller lost patience. -/
def leave (player : Player) : Player :=
  { player with awaited := none }

/-- One step of the run with the given number. -/
def step (player : Player) (id : Nat) : Player × Option Waypoint :=
  match player.runs[id]? with
  | none => (player, none)
  | some run =>
    let (run, report) := run.step
    ({ player with runs := player.runs.set id run }, report)

/-- A run is under control and has more to do. -/
def isRunning (player : Player) : Bool :=
  match player.activeRun? with
  | none => false
  | some run => !run.isOver

end Player

end Turnery.Playback
