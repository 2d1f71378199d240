import Turnery.Datum.Toml
import Turnery.Files.Workspace
import Turnery.Settings.Layout

/-!
# Settings files

Settings are kept in TOML or JSON, told by the extension. They are checked after they have been read
and before they are written.
-/

namespace Turnery.Settings

open Turnery.Files

/-- The formats of settings files. -/
inductive Format where
  | json
  | toml
  deriving DecidableEq, Repr

namespace Format

/-- The format of a path, told by its extension in any case. -/
def ofPath? (path : String) : Option Format :=
  match Path.lowerExtension path with
  | "json" => some json
  | "toml" => some toml
  | _ => none

def name : Format → String
  | json => "JSON"
  | toml => "TOML"

/-- How data are understood. In JSON only null says nothing, in TOML an empty table or array. -/
def dialect : Format → Dialect
  | json => ⟨false, fun
    | .null => true
    | _ => false⟩
  | toml => ⟨true, fun
    | .list [] => true
    | .record [] => true
    | _ => false⟩

def read? (format : Format) (text : String) : Option Datum :=
  match format with
  | json => Datum.ofJsonText? text
  | toml => Datum.ofTomlText? text

def write? (format : Format) (d : Datum) : Option String :=
  match format with
  | json => some (Datum.jsonText 0 d)
  | toml => Datum.tomlText? d

end Format

/-- The format of a path, or the complaint about it. -/
def formatOf (path : String) : Except Error Format :=
  match Format.ofPath? path with
  | some format => .ok format
  | none => .error (.settings (.unknownFormat path))

/-- The settings that a text of a format gives; they have not been checked. -/
def ofText (format : Format) (text : String) : Except SettingsError Settings :=
  match (format.read? text).bind (ofDatum? format.dialect) with
  | some s => .ok s
  | none => .error (.malformed ("Invalid " ++ format.name ++ " config: not a settings document"))

def toText (format : Format) (s : Settings) : Except SettingsError String :=
  match format.write? s.toDatum with
  | some text => .ok text
  | none => .error (.malformed "Failed to serialize config: number out of range")

/-- The checked settings that a text of a format gives. -/
def parse (format : Format) (text : String) : Except SettingsError Settings := do
  let s ← ofText format text
  s.validate
  .ok s

/-- The text of checked settings in a format. -/
def render (format : Format) (s : Settings) : Except SettingsError String := do
  s.validate
  toText format s

def load (w : Workspace) (path : String) : Except Error Settings := do
  let format ← formatOf path
  let text ← (w.readText path).mapError fun e => .io e.message
  (parse format text).mapError .settings

/-- The path of the user's settings file, if there is a directory for it. -/
def defaultPath? (w : Workspace) : Option String :=
  let directory := match (w.valueOf? "XDG_CONFIG_HOME").filter Path.isAbsolute with
    | some directory => some directory
    | none => ((w.valueOf? "HOME").filter (· != "")).map (Path.join · ".config")
  directory.map fun d => Path.join d "lathekit/config.toml"

/-- The settings in a file, or in the user's settings file if none is given; the standard ones if
there is no such file. -/
def loadOrStandard (w : Workspace) (path : Option String) : Except Error Settings :=
  match path.or (defaultPath? w) with
  | none => .ok standard
  | some path => if w.isFile path then load w path else .ok standard

/-- The workspace after the settings have been written to a file, for which directories are made. -/
def save (w : Workspace) (path : String) (s : Settings) : Except Error Workspace := do
  s.validate.mapError .settings
  let format ← formatOf path
  let text ← (toText format s).mapError .settings
  ((w.makeParent path).bind fun w => w.writeText path text).mapError fun e => .io e.message

end Turnery.Settings
