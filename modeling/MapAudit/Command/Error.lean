import MapAudit.CheckError
import MapAudit.Settings

/-!
# Why a command fails
-/

namespace MapAudit

set_option autoImplicit false

inductive CommandError where
  | settings (fault : SettingsFault)
  /-- The output cannot be written, in the words of the system. -/
  | output (text : String)
  /-- The folder of checks cannot be loaded. -/
  | load (cause : CheckError)
  | unknownCheck (id : String)
  /-- An explanation is asked for, and not of what. -/
  | noTarget

namespace CommandError

def code : CommandError → String
  | .settings _ => "GEOCHECK_CLI_CONFIG_ERROR"
  | .output _ => "GEOCHECK_CLI_IO_ERROR"
  | .load _ => "GEOCHECK_CLI_LOAD_FAILED"
  | .unknownCheck _ => "GEOCHECK_CLI_UNKNOWN_CHECK"
  | .noTarget => "GEOCHECK_CLI_CONFIG_ERROR"

def message : CommandError → String
  | .settings fault => fault.message
  | .output text => text
  | .load cause => cause.message
  | .unknownCheck id => "No loaded check has class id '" ++ id ++ "'"
  | .noTarget => "explain needs --check or --file"

def display (e : CommandError) : String :=
  e.code ++ ": " ++ e.message

end CommandError

end MapAudit
