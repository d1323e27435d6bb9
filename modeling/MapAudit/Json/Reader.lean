import MapAudit.Json.Token

/-!
# Reading JSON

A text is read token by token.  The state says what may come next and holds the
containers that are still open, so nesting has no limit.
-/

namespace MapAudit.Json

set_option autoImplicit false

/-- An open container, with what it holds before the value that is being read. -/
inductive Frame where
  | array (before : List Value)
  | object (before : List (List StringUnit × Value)) (key : List StringUnit)

/-- What has been read, and so what may come next. -/
inductive State where
  /-- A value comes. -/
  | value (outer : List Frame)
  /-- A value or the end of an array comes. -/
  | arrayStart (outer : List Frame)
  /-- A key or the end of an object comes. -/
  | objectStart (outer : List Frame)
  /-- A key comes. -/
  | key (before : List (List StringUnit × Value)) (outer : List Frame)
  /-- A colon comes. -/
  | colon (before : List (List StringUnit × Value)) (key : List StringUnit) (outer : List Frame)
  /-- A value has been read. -/
  | after (v : Value) (outer : List Frame)

def State.beginValue (outer : List Frame) : Token → Option State
  | .openObject => some (.objectStart outer)
  | .openArray => some (.arrayStart outer)
  | .literal v => some (.after v outer)
  | .string us => some (.after (.string us) outer)
  | _ => none

def State.step : State → Token → Option State
  | .value outer, t => beginValue outer t
  | .arrayStart outer, .closeArray => some (.after (.array []) outer)
  | .arrayStart outer, t => beginValue (.array [] :: outer) t
  | .objectStart outer, .closeObject => some (.after (.object []) outer)
  | .objectStart outer, .string us => some (.colon [] us outer)
  | .key before outer, .string us => some (.colon before us outer)
  | .colon before us outer, .colon => some (.value (.object before us :: outer))
  | .after v (.array before :: outer), .comma => some (.value (.array (before ++ [v]) :: outer))
  | .after v (.array before :: outer), .closeArray => some (.after (.array (before ++ [v])) outer)
  | .after v (.object before us :: outer), .comma => some (.key (before ++ [(us, v)]) outer)
  | .after v (.object before us :: outer), .closeObject =>
      some (.after (.object (before ++ [(us, v)])) outer)
  | _, _ => none

/-- The value of a text that is one JSON value with gaps around it. -/
def read (s : String) : Option Value := do
  let ts ← tokens s.toList
  match ← ts.foldlM State.step (.value []) with
  | .after v [] => return v
  | _ => none

end MapAudit.Json
