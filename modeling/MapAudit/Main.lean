import MapAudit.Command.Session

/-!
# The program

Looks at the files that a command needs, lets the library decide, and writes what
it says.
-/

namespace MapAudit.Program

set_option autoImplicit false

/-- A fault by the number and the words of the system, which gives some numbers
negated. -/
def numberedFault (given : UInt32) (words : String) : FileFault :=
  let number := if given < 0x80000000 then given else 0 - given
  if number = 2 then .notFound
  else if number = 20 then .notFolder
  else if number = 21 then .isFolder
  else if number = 36 then .nameTooLong
  else .other (words ++ " (os error " ++ toString number ++ ")")

def faultOf : IO.Error → FileFault
  | .noFileOrDirectory _ n words => numberedFault n words
  | .inappropriateType _ n words => numberedFault n words
  | .invalidArgument _ n words => numberedFault n words
  | .permissionDenied _ n words => numberedFault n words
  | .resourceExhausted _ n words => numberedFault n words
  | .noSuchThing _ n words => numberedFault n words
  | .otherError n words => numberedFault n words
  | e => .other (toString e)

def readText (path : String) : IO (Except FileFault String) := do
  try
    match String.fromUTF8? (← IO.FS.readBinFile path) with
    | some text => return .ok text
    | none => return .error .notUtf8
  catch e => return .error (faultOf e)

/-- The names of the regular files in a folder.  The system has them as texts. -/
def listFolder (path : String) : IO (Except FileFault (List String)) := do
  try
    let mut names := []
    for entry in ← (← IO.FS.realPath path).readDir do
      let isFile ← try pure ((← entry.path.metadata).type == .file) catch _ => pure false
      if isFile then names := entry.fileName :: names
    return .ok names
  catch e => return .error (faultOf e)

/-- Add a file to a snapshot: its text, and where its path leads. -/
def look (seen : Snapshot) (path : String) : IO Snapshot := do
  let text ← readText path
  let key := Text.bytes path
  let place ←
    try pure [(key, [Text.bytes (← IO.FS.realPath path).toString])] catch _ => pure []
  return { seen with texts := (key, text) :: seen.texts, places := place ++ seen.places }

/-- Look at the documents that some settings name. -/
def lookAtChecks (seen : Snapshot) (s : Settings) : IO Snapshot := do
  let folder := Text.bytes s.checksFolder
  match ← listFolder s.checksFolder with
  | .error fault => return { seen with folders := [(folder, .error fault)] }
  | .ok names =>
      let names := names.map Text.bytes
      let seen := { seen with folders := [(folder, .ok (names.map .ok))] }
      let start : Catalogue := { folder, extension := s.extension }
      ((start.documents names).map Text.ofBytes).foldlM look seen

/-- Look at all that a command needs. -/
def lookFor (command : Command) : IO Snapshot := do
  let seen ← look {} command.settings
  let seen ← match Settings.load seen.files (Text.bytes command.settings) with
    | .ok s => lookAtChecks seen s
    | .error _ => pure seen
  match command with
  | .explain _ (some (.file path)) => look seen path
  | _ => return seen

def run (arguments : List String) : IO UInt32 := do
  let seen ← match Command.ofArguments arguments with
    | .ok command => lookFor command
    | .error _ => pure {}
  let session := Session.ofArguments seen.files arguments
  IO.eprint session.errors
  IO.print session.output
  return UInt32.ofNat session.exitCode

end MapAudit.Program

def main (arguments : List String) : IO UInt32 :=
  MapAudit.Program.run arguments
