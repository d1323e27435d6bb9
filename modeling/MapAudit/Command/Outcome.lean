import MapAudit.Catalogue
import MapAudit.Command.Arguments
import MapAudit.Command.Error
import MapAudit.Explanation
import MapAudit.Json.Printer
import MapAudit.Log.Journal
import MapAudit.Markup.Document

/-!
# What commands do

Every command reads the settings, loads the folder of checks, and reports on what
it found.  `Command.run` gives what it writes, what it logs, and whether it fails.
-/

namespace MapAudit

set_option autoImplicit false

/-- What a command leaves. -/
structure Outcome where
  /-- The text on standard output. -/
  output : String := ""
  /-- The log lines that were written. -/
  log : List Log.Entry := []
  /-- Why it failed, if it did. -/
  failure : Option CommandError := none

/-! ## Responses -/

namespace Response

def line (data : Json.Value) : String :=
  (Json.Value.record [("status", .text "ok"), ("data", data)]).render ++ "\n"

def statement (s : Statement) : Json.Value :=
  .record [("stage", .text s.relation), ("role", .text s.role.key), ("sql", .text s.sql)]

/-- The statements of a check, with those that drop what it creates if runs do. -/
def compiled (s : Settings) (p : Pipeline) : Json.Value :=
  let dropping :=
    if s.dropIntermediates then [("teardown", Json.Value.array (p.teardown.map statement))] else []
  .record ([("id", .text p.id), ("title", .text p.issueClass.title),
    ("result_kind", .text p.result.name),
    ("statements", .array (p.statements.map statement))] ++ dropping)

def listed (p : Pipeline) : Json.Value :=
  .record [("id", .text p.id), ("item", .text p.issueClass.item),
    ("level", .text p.issueClass.level), ("title", .text p.issueClass.title),
    ("result_kind", .text p.result.name), ("stages", .texts (p.plan.map (·.name)))]

def rejected (r : Rejected) : Json.Value :=
  .record [("origin", .text r.origin), ("code", .text r.error.code),
    ("stage", .text? r.error.request), ("message", .text r.error.message)]

def catalogue (c : Catalogue) (entry : Pipeline → Json.Value) : Json.Value :=
  .record [("checks", .array (c.checks.map entry)),
    ("rejected", .array (c.rejected.map rejected))]

end Response

/-- The explanation of a document, as the catalogue knows it or as it is. -/
def Catalogue.explainFile (files : Files) (c : Catalogue) (path : Bytes) : Explanation :=
  match c.inspect Markup.Element.parse files path with
  | .ok p => .ofPipeline p
  | .error e => .ofError e

/-! ## Commands -/

namespace Command

def require (c : Catalogue) (id : String) : Except CommandError Pipeline :=
  match c.get? id with
  | some p => .ok p
  | none => .error (.unknownCheck id)

def settings : Command → String
  | .list path => path
  | .compile path _ => path
  | .explain path _ => path

/-- What a command writes once the checks are loaded. -/
def report (files : Files) (s : Settings) (c : Catalogue) : Command → Except CommandError String
  | .list _ => .ok (Response.line (Response.catalogue c Response.listed))
  | .compile _ none => .ok (Response.line (Response.catalogue c (Response.compiled s)))
  | .compile _ (some id) => do
      let p ← require c id
      return Response.line (Response.compiled s p)
  | .explain _ (some (.check id)) => do
      let p ← require c id
      return (Explanation.ofPipeline p).render
  | .explain _ (some (.file path)) => .ok (c.explainFile files (Text.bytes path)).render
  | .explain _ none => .error .noTarget

/-- Load the checks of some settings, and report on them. -/
def runWith (files : Files) (s : Settings) (threshold : Log.Severity) (command : Command) : Outcome :=
  let start : Catalogue := { folder := Text.bytes s.checksFolder, extension := s.extension }
  let step := start.loadAll Markup.Element.parse files
  let log := (Log.Journal.recordAll { threshold } step.log).written
  match step.outcome with
  | .error e => { log, failure := some (.load e) }
  | .ok () =>
      match command.report files s step.catalogue with
      | .ok output => { output, log }
      | .error e => { log, failure := some e }

/-- The settings that a command names, with their log threshold. -/
def loadSettings (files : Files) (command : Command) :
    Except SettingsFault (Settings × Log.Severity) := do
  let s ← Settings.load files (Text.bytes command.settings)
  return (s, ← s.severity)

/-- Run a command.  An explanation of nothing fails before anything is read. -/
def run (files : Files) (command : Command) : Outcome :=
  match command with
  | .explain _ none => { failure := some .noTarget }
  | command =>
      match loadSettings files command with
      | .error fault => { failure := some (.settings fault) }
      | .ok (s, threshold) => runWith files s threshold command

end Command

end MapAudit
