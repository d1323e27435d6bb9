/-!
# Events and severities

What happens while checks are loaded and run, and how much each event matters.
-/

namespace MapAudit.Log

set_option autoImplicit false

/-- How much an event matters, from least to most. -/
inductive Severity where
  | trace
  | info
  | warn
  | error
  deriving DecidableEq, Repr

namespace Severity

def name : Severity → String
  | .trace => "TRACE"
  | .info => "INFO"
  | .warn => "WARN"
  | .error => "ERROR"

def rank : Severity → Nat
  | .trace => 0
  | .info => 1
  | .warn => 2
  | .error => 3

def all : List Severity := [.trace, .info, .warn, .error]

/-- An ASCII letter in upper case; other characters are kept. -/
def upperAscii (c : Char) : Char :=
  if 'a' ≤ c ∧ c ≤ 'z' then Char.ofNat (c.toNat - 32) else c

/-- The severity of a name, in any ASCII case. -/
def ofName? (text : String) : Option Severity :=
  all.find? fun severity => severity.name.toList = text.toList.map upperAscii

end Severity

/-- Something that happened. -/
inductive Event where
  /-- A folder is about to be scanned. -/
  | checksLoadBegin
  /-- A check was added. -/
  | checkLoaded
  /-- A document was refused. -/
  | checkRejected
  /-- A folder was scanned. -/
  | checksLoadComplete
  /-- The statements of a check were written. -/
  | checkCompiled
  /-- The class of a check was registered. -/
  | classRegistered
  /-- A pipeline is about to run. -/
  | checkRunBegin
  /-- A statement succeeded. -/
  | statementExecuted
  /-- A pipeline ran to its end. -/
  | checkRunComplete
  /-- A pipeline failed. -/
  | checkRunFailed
  deriving DecidableEq, Repr

namespace Event

def all : List Event :=
  [.checksLoadBegin, .checkLoaded, .checkRejected, .checksLoadComplete, .checkCompiled,
   .classRegistered, .checkRunBegin, .statementExecuted, .checkRunComplete, .checkRunFailed]

def name : Event → String
  | .checksLoadBegin => "CHECKS_LOAD_BEGIN"
  | .checkLoaded => "CHECK_LOADED"
  | .checkRejected => "CHECK_REJECTED"
  | .checksLoadComplete => "CHECKS_LOAD_COMPLETE"
  | .checkCompiled => "CHECK_COMPILED"
  | .classRegistered => "CLASS_REGISTERED"
  | .checkRunBegin => "CHECK_RUN_BEGIN"
  | .statementExecuted => "STATEMENT_EXECUTED"
  | .checkRunComplete => "CHECK_RUN_COMPLETE"
  | .checkRunFailed => "CHECK_RUN_FAILED"

def ofName? (text : String) : Option Event :=
  all.find? fun event => event.name = text

def severity : Event → Severity
  | .checkRejected => .error
  | .checkRunFailed => .error
  | .statementExecuted => .trace
  | _ => .info

end Event

end MapAudit.Log
