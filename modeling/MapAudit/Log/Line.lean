import MapAudit.Log.Event
import MapAudit.Text.Hex
import MapAudit.Text.Cut

/-!
# Log lines

One event is one line: a JSON object whose members are the event, the severity,
and the fields sorted by key.
-/

namespace MapAudit.Log

set_option autoImplicit false

structure Entry where
  severity : Severity
  event : String
  fields : List (String × String)
  deriving DecidableEq, Repr

def Event.entry (event : Event) (fields : List (String × String)) : Entry :=
  ⟨event.severity, event.name, fields⟩

/-! ## Escaping -/

/-- Whether a character is a control character: U+0000 to U+001F and U+007F to
U+009F. -/
def isControl (c : Char) : Bool :=
  decide (c.toNat < 0x20) || decide (0x7F ≤ c.toNat) && decide (c.toNat ≤ 0x9F)

/-- How a character is written between the quotes of a log line. -/
def escapeChar (c : Char) : List Char :=
  if c = '"' then ['\\', '"']
  else if c = '\\' then ['\\', '\\']
  else if c = '\n' then ['\\', 'n']
  else if c = '\r' then ['\\', 'r']
  else if c = '\t' then ['\\', 't']
  else if isControl c then '\\' :: 'u' :: Text.Hex.four c.toNat
  else [c]

/-- How a text is written between the quotes of a log line. -/
def escape (s : String) : String :=
  String.ofList (s.toList.flatMap escapeChar)

/-! ## Rendering -/

def member (field : String × String) : String :=
  "\"" ++ escape field.1 ++ "\":\"" ++ escape field.2 ++ "\""

/-- Fields sorted by key; fields of one key keep their order. -/
def sortFields (fields : List (String × String)) : List (String × String) :=
  fields.mergeSort fun a b => decide (a.1 ≤ b.1)

namespace Entry

def members (e : Entry) : List (String × String) :=
  ("event", e.event) :: ("severity", e.severity.name) :: sortFields e.fields

/-- The line of an entry, without its end. -/
def text (e : Entry) : String :=
  "\x7b" ++ Text.joinWith "," (e.members.map member) ++ "\x7d"

def line (e : Entry) : String :=
  e.text ++ "\n"

end Entry

end MapAudit.Log
