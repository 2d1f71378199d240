import Turnery.Command.Arguments
import Turnery.Command.Failure
import Turnery.Command.Request
import Turnery.Command.Run
import Turnery.Command.Surroundings
import Turnery.Curve.Spline
import Turnery.Curve.Tessellation
import Turnery.Datum.Basic
import Turnery.Datum.Json
import Turnery.Datum.Schema
import Turnery.Datum.Toml
import Turnery.Drawing.Entity
import Turnery.Drawing.Placement
import Turnery.Dxf.Annex
import Turnery.Dxf.Content
import Turnery.Dxf.Objects
import Turnery.Dxf.Pair
import Turnery.Dxf.Preview
import Turnery.Dxf.Record
import Turnery.Dxf.Scan
import Turnery.Dxf.Setting
import Turnery.Error
import Turnery.Files.Device
import Turnery.Files.Path
import Turnery.Files.Program
import Turnery.Files.UniqueName
import Turnery.Files.Workspace
import Turnery.Gcode.Line
import Turnery.Gcode.Turning
import Turnery.Gcode.Waypoint
import Turnery.Geometry.Affine
import Turnery.Geometry.Bounds
import Turnery.Geometry.Linework
import Turnery.Geometry.Point
import Turnery.Geometry.Polyline
import Turnery.Geometry.Scalar
import Turnery.Import.Importer
import Turnery.Import.Normalizer
import Turnery.Import.Record
import Turnery.Import.Standard
import Turnery.Import.Tier
import Turnery.Job.Basic
import Turnery.Job.ToolSpec
import Turnery.Json.Number
import Turnery.Json.Reader
import Turnery.Json.Value
import Turnery.Number.Binary64
import Turnery.Number.Digits
import Turnery.Number.Fixed
import Turnery.Number.FloatStyle
import Turnery.Number.Literal
import Turnery.Number.Radix
import Turnery.Number.Rounding
import Turnery.Number.Shortest
import Turnery.Playback.Interval
import Turnery.Playback.Player
import Turnery.Playback.Timeline
import Turnery.Proofs.Gcode.Motion
import Turnery.Proofs.Number.DecimalShape
import Turnery.Settings.Basic
import Turnery.Settings.Derived
import Turnery.Settings.File
import Turnery.Settings.Layout
import Turnery.Shell.Alias
import Turnery.Shell.Arithmetic
import Turnery.Shell.Builtin
import Turnery.Shell.Command
import Turnery.Shell.Condition
import Turnery.Shell.Directory
import Turnery.Shell.Expansion
import Turnery.Shell.Field
import Turnery.Shell.Format
import Turnery.Shell.InputLine
import Turnery.Shell.Job
import Turnery.Shell.Numeral
import Turnery.Shell.Octets
import Turnery.Shell.Opening
import Turnery.Shell.Option
import Turnery.Shell.OptionScan
import Turnery.Shell.Outside
import Turnery.Shell.Pattern
import Turnery.Shell.Program
import Turnery.Shell.Redirect
import Turnery.Shell.Regex
import Turnery.Shell.Run
import Turnery.Shell.Signal
import Turnery.Shell.State
import Turnery.Shell.Switch
import Turnery.Shell.Token
import Turnery.Shell.Utility
import Turnery.Shell.Utility.Block
import Turnery.Shell.Utility.Calculation
import Turnery.Shell.Utility.Call
import Turnery.Shell.Utility.Characters
import Turnery.Shell.Utility.Choice
import Turnery.Shell.Utility.Columns
import Turnery.Shell.Utility.Comparison
import Turnery.Shell.Utility.Display
import Turnery.Shell.Utility.Dump
import Turnery.Shell.Utility.Editor
import Turnery.Shell.Utility.Editor.Script
import Turnery.Shell.Utility.Extent
import Turnery.Shell.Utility.Filing
import Turnery.Shell.Utility.Listing
import Turnery.Shell.Utility.Naming
import Turnery.Shell.Utility.Ordering
import Turnery.Shell.Utility.Search
import Turnery.Shell.Utility.Sequence
import Turnery.Shell.Utility.System
import Turnery.Shell.Utility.Tally
import Turnery.Shell.Utility.Transfer
import Turnery.Shell.Word
import Turnery.Shell.Wrapping
import Turnery.Svg.Document
import Turnery.Svg.PathData
import Turnery.Text.CharacterClass
import Turnery.Text.Decimal
import Turnery.Text.Encoding
import Turnery.Text.Lines
import Turnery.Text.Utf8
import Turnery.Text.WordCharacter
import Turnery.Toml.Lexical
import Turnery.Toml.Node
import Turnery.Toml.Reader
import Turnery.Main
import Turnery.Proofs.Gcode.Tour
import Turnery.Proofs.Playback.Reports
import Turnery.Proofs.Drawing.Occurrence
import Turnery.Proofs.Drawing.Levels
import Turnery.Proofs.Dxf.Records
import Turnery.Proofs.Gcode.Passes
import Turnery.Proofs.Svg.Segments
import Turnery.Proofs.Import.Finite
import Turnery.Proofs.Import.Tried
import Turnery.Proofs.Dxf.Layout
import Turnery.Proofs.Import.SameShape
import Turnery.Proofs.Gcode.Readout
import Turnery.Proofs.Import.History
import Turnery.Proofs.Import.Populated
import Turnery.Proofs.Datum.Json
import Turnery.Proofs.Datum.Schema
import Turnery.Proofs.Playback.GivenUp
import Turnery.Proofs.Settings.Reread
import Turnery.Proofs.Svg.Reading
import Turnery.Proofs.Number.Canonical
import Turnery.Proofs.Curve.Evaluation
import Turnery.Proofs.Curve.Sweep
import Turnery.Proofs.Text.Decimal
import Turnery.Proofs.Gcode.MotionLines
import Turnery.Proofs.Import.OneByOne
import Turnery.Proofs.Svg.Spelling
import Turnery.Proofs.Svg.Elements
import Turnery.Proofs.Curve.Hull
import Turnery.Proofs.Curve.Incidence
import Turnery.Proofs.Drawing.Spline
import Turnery.Proofs.Settings.Given
import Turnery.Proofs.Job.Suspicion
import Turnery.Proofs.Job.ToolSpec
import Turnery.Proofs.Gcode.Speeds
import Turnery.Proofs.Playback.Pace
import Turnery.Proofs.Geometry.Bounds
import Turnery.Proofs.Playback.Interval
import Turnery.Proofs.Drawing.Similarity
import Turnery.Proofs.Curve.Words
import Turnery.Proofs.Fault
import Turnery.Proofs.Svg.Positions
import Turnery.Proofs.Dxf.Ordinates
