import MapAudit.Files.Basic
import MapAudit.Json.Reader
import MapAudit.Log.Event
import MapAudit.Text.Blank

/-!
# Settings

Where the checks are, and how to treat them.  Settings are a JSON object, or a
JSON array with the values in the order of the fields.  Every field but the first
has a default.
-/

namespace MapAudit

set_option autoImplicit false

inductive Settings.Field where
  | checksFolder
  | extension
  | dropIntermediates
  | logLevel
  deriving DecidableEq, Repr

namespace Settings.Field

/-- The key of a field in an object. -/
def key : Field → String
  | .checksFolder => "checks_dir"
  | .extension => "extension"
  | .dropIntermediates => "drop_intermediates"
  | .logLevel => "log_level"

def all : List Field := [.checksFolder, .extension, .dropIntermediates, .logLevel]

/-- The place of a field in an array. -/
def place : Field → Nat
  | .checksFolder => 0
  | .extension => 1
  | .dropIntermediates => 2
  | .logLevel => 3

end Settings.Field

/-! ## Faults -/

/-- Why a text does not hold settings. -/
inductive SettingsShape where
  | notJson
  | notRecord
  /-- A key is not text. -/
  | badKey
  | missing (field : Settings.Field)
  | repeated (field : Settings.Field)
  | wrongType (field : Settings.Field)
  | tooLong
  deriving DecidableEq, Repr

def SettingsShape.message : SettingsShape → String
  | .notJson => "not a JSON value"
  | .notRecord => "expected an object or an array"
  | .badKey => "a key is not text"
  | .missing field => "missing field " ++ field.key
  | .repeated field => "repeated field " ++ field.key
  | .wrongType field => "wrong type of field " ++ field.key
  | .tooLong => "too many entries"

inductive SettingsFault where
  | unreadable (fault : FileFault)
  | malformed (shape : SettingsShape)
  | noFolder
  | noExtension
  /-- The extension has its dot. -/
  | dottedExtension (text : String)
  | unknownLevel (text : String)
  /-- A fault described in words. -/
  | described (text : String)
  deriving DecidableEq, Repr

def SettingsFault.message : SettingsFault → String
  | .unreadable fault => "Failed to read config: " ++ fault.message
  | .malformed shape => "Invalid config JSON: " ++ shape.message
  | .noFolder => "checks_dir must not be empty"
  | .noExtension => "extension must not be empty"
  | .dottedExtension text =>
      "Invalid extension: '" ++ text ++ "'. Give it without the leading dot."
  | .unknownLevel text =>
      "Invalid log_level: '" ++ text ++ "'. Expected trace, info, warn or error."
  | .described text => text

/-! ## Settings -/

/-- Where the checks are, and how to treat them. -/
structure Settings where
  /-- The folder of check documents. -/
  checksFolder : String
  /-- The extension of check documents, without the dot. -/
  extension : String := "xml"
  /-- Whether runs drop the relations they create. -/
  dropIntermediates : Bool := true
  /-- The name of the log threshold. -/
  logLevel : String := "info"
  deriving DecidableEq, Repr

namespace Settings

def severity (s : Settings) : Except SettingsFault Log.Severity :=
  match Log.Severity.ofName? s.logLevel with
  | some severity => .ok severity
  | none => .error (.unknownLevel s.logLevel)

def check (s : Settings) : Except SettingsFault Unit := do
  if Text.trim s.checksFolder = "" then throw .noFolder
  if s.extension = "" then throw .noExtension
  if s.extension.toList.head? = some '.' then throw (.dottedExtension s.extension)
  let _ ← s.severity

/-! ## Reading -/

/-- The value of a text field, or its default. -/
def textOr (field : Field) (default : String) : Option Json.Value → Except SettingsShape String
  | none => .ok default
  | some (.string us) =>
      match Json.decode us with
      | some text => .ok text
      | none => .error (.wrongType field)
  | some _ => .error (.wrongType field)

/-- The value of a yes-or-no field, or its default. -/
def boolOr (field : Field) (default : Bool) : Option Json.Value → Except SettingsShape Bool
  | none => .ok default
  | some (.bool b) => .ok b
  | some _ => .error (.wrongType field)

/-- Settings from the values of the fields that are given. -/
def ofValues (value : Field → Option Json.Value) : Except SettingsShape Settings := do
  if (value .checksFolder).isNone then throw (.missing .checksFolder)
  return {
    checksFolder := ← textOr .checksFolder "" (value .checksFolder)
    extension := ← textOr .extension "xml" (value .extension)
    dropIntermediates := ← boolOr .dropIntermediates true (value .dropIntermediates)
    logLevel := ← textOr .logLevel "info" (value .logLevel) }

/-- The members of an object with their keys as text. -/
def textKeys (members : List (List Json.StringUnit × Json.Value)) :
    Except SettingsShape (List (String × Json.Value)) :=
  members.mapM fun m =>
    match Json.decode m.1 with
    | some key => .ok (key, m.2)
    | none => .error .badKey

/-- The first field that is given more than once. -/
def repeated? (members : List (String × Json.Value)) : Option Field :=
  Field.all.find? fun field => (members.filter fun m => m.1 = field.key).length > 1

/-- Settings from a JSON value.  Members with other keys mean nothing. -/
def ofJson : Json.Value → Except SettingsShape Settings
  | .object members => do
      let members ← textKeys members
      match repeated? members with
      | some field => throw (.repeated field)
      | none => ofValues fun field => members.lookup field.key
  | .array items =>
      if items.length > Field.all.length then .error .tooLong
      else ofValues fun field => items[field.place]?
  | _ => .error .notRecord

def ofText (text : String) : Except SettingsShape Settings :=
  match Json.read text with
  | some value => ofJson value
  | none => .error .notJson

/-- The checked settings in a file. -/
def load (files : Files) (path : Bytes) : Except SettingsFault Settings := do
  match files.read path with
  | .error fault => throw (.unreadable fault)
  | .ok text =>
      match ofText text with
      | .error shape => throw (.malformed shape)
      | .ok settings =>
          settings.check
          return settings

end Settings

end MapAudit
