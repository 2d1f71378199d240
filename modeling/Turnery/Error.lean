/-!
# What can go wrong

The causes for which an import, the settings or a whole command can fail, and the one text of each.
-/

namespace Turnery

/-- Why a drawing was not imported. -/
inductive ImportError where
  | notFound (path : String)
  | unsupportedFormat (extension : String)
  /-- A reader gave up on the drawing or on one of its entities. -/
  | undecodable (reader reason : String)
  | normalizerUnavailable (reason : String)
  | malformedArtifact (reason : String)
  | io (reason : String)
  deriving DecidableEq, Repr

namespace ImportError

def message : ImportError → String
  | notFound path => "Input file not found: " ++ path
  | unsupportedFormat extension => "Unsupported file type: " ++ extension
  | undecodable reader reason => reader ++ " decoder failed: " ++ reason
  | normalizerUnavailable reason => "External normalizer unavailable: " ++ reason
  | malformedArtifact reason => "Malformed normalizer artifact: " ++ reason
  | io reason => "I/O error: " ++ reason

/-- Another reader may still succeed on the same file. -/
def isRecoverable : ImportError → Bool
  | notFound _ => false
  | unsupportedFormat _ => false
  | _ => true

end ImportError

/-- Why settings were refused. -/
inductive SettingsError where
  | invalidValue (setting reason : String)
  | unknownFormat (path : String)
  /-- The text is not a settings text, or the settings have no text. -/
  | malformed (reason : String)
  deriving DecidableEq, Repr

def SettingsError.message : SettingsError → String
  | invalidValue setting reason => "Invalid setting value for " ++ setting ++ ": " ++ reason
  | unknownFormat path => "Config file must be .json or .toml: " ++ path
  | malformed reason => "Invalid config file: " ++ reason

/-- Why an operation failed. -/
inductive Error where
  | importing (cause : ImportError)
  | settings (cause : SettingsError)
  | io (reason : String)
  | other (reason : String)
  deriving DecidableEq, Repr

namespace Error

def message : Error → String
  | importing cause => cause.message
  | settings cause => cause.message
  | io reason => "I/O error: " ++ reason
  | other reason => reason

def isImporting : Error → Bool
  | importing _ => true
  | _ => false

def isSettings : Error → Bool
  | settings _ => true
  | _ => false

end Error

end Turnery
