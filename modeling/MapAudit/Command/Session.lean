import MapAudit.Command.Outcome

/-!
# Sessions

A session is what the program does with its arguments: what it writes to standard
output and standard error, and the code it exits with.
-/

namespace MapAudit

set_option autoImplicit false

/-- What the program writes, and the code it exits with. -/
structure Session where
  exitCode : Nat := 0
  output : String := ""
  errors : String := ""
  deriving DecidableEq, Repr

namespace Usage

/-- How the program is used. -/
def synopsis : String :=
  "Usage: geocheck <COMMAND>\n\nCommands:\n" ++
  "  list     List loaded checks and rejected documents [--config <PATH>]\n" ++
  "  compile  Print the statements of checks [--config <PATH>] [--check <ID>]\n" ++
  "  explain  Explain a check [--config <PATH>] (--check <ID> | --file <PATH>)\n" ++
  "  help     Print this message\n"

def message : Usage → String
  | .help => ""
  | .version => ""
  | .noCommand => "a command is needed"
  | .unknownCommand => "unrecognized command"
  | .unknownArgument => "unexpected argument"
  | .badValue => "an option needs a value"
  | .unneededValue => "unexpected value"
  | .conflict => "options cannot be used together"
  | .missingArgument => "a required option is missing"

def session (u : Usage) : Session :=
  match u with
  | .help => { output := synopsis }
  | .version => { output := "geocheck 0.1.0\n" }
  | .noCommand => { exitCode := u.exitCode, errors := synopsis }
  | u => { exitCode := u.exitCode, errors := "error: " ++ u.message ++ "\n\n" ++ synopsis }

end Usage

/-- The session of a command: its log, and then its failure, on standard error. -/
def Outcome.session (o : Outcome) : Session :=
  let log := String.join (o.log.map (·.line))
  match o.failure with
  | none => { output := o.output, errors := log }
  | some e => { exitCode := 1, output := o.output, errors := log ++ e.display ++ "\n" }

def Session.ofArguments (files : Files) (arguments : List String) : Session :=
  match Command.ofArguments arguments with
  | .ok command => (command.run files).session
  | .error usage => usage.session

end MapAudit
