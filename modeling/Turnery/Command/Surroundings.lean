import Turnery.Command.Request
import Turnery.Settings.Derived
import Turnery.Settings.File

/-!
# What a command line looks at

A workspace is made before a command line is run in it, so whatever the command line looks at has to
be known first. The settings decide where the normalizer is looked for; a workspace that holds the
settings file tells all.
-/

namespace Turnery.Command

open Turnery.Files

def environmentNames : List String :=
  ["HOME", "XDG_CONFIG_HOME", "TMPDIR", "LATHEKIT_NORMALIZER", "PATH"]

namespace Task

def paths : Task → List String
  | describe drawing _ => [drawing]
  | generate drawing output _ _ => drawing :: output.toList
  | simulate program _ => [program]
  | showSettings => []
  | createSettings => []

end Task

/-- The paths at which the normalizer is looked for and writes. -/
def normalizerPaths (s : Settings) (w : Workspace) : List String :=
  let n := (s.importOptions w).normalizer
  n.artifactDirectory :: n.candidates w

/-- The paths that a command line looks at, as far as the workspace tells. -/
def pathsOf (words : List String) (w : Workspace) : List String :=
  match Request.parse words with
  | .error _ => []
  | .ok request =>
    let file := request.settingsFile.or (Settings.defaultPath? w)
    let further := match Settings.loadOrStandard w request.settingsFile with
      | .ok s => normalizerPaths s w
      | .error _ => []
    file.toList ++ request.task.paths ++ further

def placesFrom : Place → List String → List Place
  | _, [] => []
  | place, step :: rest =>
    let next := if step == ".." then place.dropLast else place ++ [step]
    next :: placesFrom next rest

/-- The places on the way to where a path leads, from the root on. -/
def placesOf (w : Workspace) (path : String) : List Place :=
  let start := w.origin path
  placesFrom [] start ++ placesFrom start (Path.steps path)

/-- The places that a command line looks at, each after those that lead to it. -/
def placesLookedAt (words : List String) (w : Workspace) : List Place :=
  (pathsOf words w).flatMap (placesOf w)

end Turnery.Command
