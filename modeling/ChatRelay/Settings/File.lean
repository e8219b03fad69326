import ChatRelay.Settings.Document
import ChatRelay.Toml.Reader
import ChatRelay.Toml.Printer

/-!
# Files of settings

Settings are read from a file and validated, or written to one as they are. A node that finds no
file writes one with its defaults and goes on with them.
-/

namespace ChatRelay

/-- Why settings cannot be read from a file or written to it. -/
inductive SettingsFileError where
  | unreadable (path : String) (cause : FileError)
  /-- The file is not UTF-8. -/
  | noText (path : String)
  /-- The file is no document, or a setting is of the wrong kind. -/
  | malformed (path : String)
  | invalid (cause : SettingsError)
  /-- Some number is beyond what a document can hold. -/
  | unwritable
  | system (cause : FileError)
  deriving DecidableEq, Repr

/-- The report of a failure. -/
def SettingsFileError.message : SettingsFileError → String
  | .unreadable path cause => "Configuration error: cannot read " ++ path ++ ": " ++ cause.message
  | .noText path =>
    "Configuration error: cannot read " ++ path ++ ": stream did not contain valid UTF-8"
  | .malformed path => "Configuration error: invalid " ++ path
  | .invalid cause => "Configuration error: " ++ cause.message
  | .unwritable => "Configuration error: cannot serialize config"
  | .system cause => "IO error: " ++ cause.message

namespace Settings

/-- Reads the contents of a file. -/
def ofContents (defaults : Settings) (path : String) (contents : Bytes) :
    Except SettingsFileError Settings :=
  match Bytes.toText? contents with
  | none => .error (.noText path)
  | some text =>
    match (Toml.read? text).bind defaults.ofDocument? with
    | none => .error (.malformed path)
    | some settings =>
      match settings.fault? with
      | some cause => .error (.invalid cause)
      | none => .ok settings

/-- Reads a file. -/
def load (defaults : Settings) (path : String) :
    Routine FileCall.Answer (Except SettingsFileError Settings) := do
  match ← askFiles (.read path) with
  | .error cause => return .error (.unreadable path cause)
  | .ok contents => return defaults.ofContents path contents

/-- Writes a file. Its contents are made before it is touched. -/
def save (settings : Settings) (path : String) :
    Routine FileCall.Answer (Except SettingsFileError Unit) := do
  match Toml.render? settings.toDocument with
  | none => return .error .unwritable
  | some text =>
    let answer ← askFiles (.write path (Bytes.ofText text))
    return answer.mapError .system

/-- Makes the directory that a file is to be in. -/
def makeRoom (path : String) : Routine FileCall.Answer (Except FileError Unit) :=
  match FilePath.parent? path with
  | some directory => if directory.isEmpty then .done (.ok ()) else askFiles (.createDirectories directory)
  | none => .done (.ok ())

/-- Reads a file, or writes the defaults where there is none. -/
def loadOrCreate (defaults : Settings) (path : String) :
    Routine FileCall.Answer (Except SettingsFileError Settings) := do
  if ← askFiles (.present path) then load defaults path
  else
    match ← makeRoom path with
    | .error cause => return .error (.system cause)
    | .ok () =>
      let answer ← defaults.save path
      return answer.map fun _ => defaults

end Settings

end ChatRelay
