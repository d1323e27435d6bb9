import MapAudit.Kind
import MapAudit.Run.Error
import MapAudit.Text.Blank
import MapAudit.Text.Decimal

/-!
# Rows and features

An output row is a list of columns, some of which may be null.  `Feature.decode`
reads the feature that it reports.
-/

namespace MapAudit.Run

set_option autoImplicit false

/-- The columns of an output row. -/
abbrev Row := List (Option String)

/-- A column, if it is there and not null. -/
def column? (row : Row) (n : Nat) : Option String :=
  (row[n]?).join

/-- A feature that an issue points at. -/
inductive Feature where
  | node (id : Int) (position : String)
  | way (id : Int)
  | relation (id : Int)
  deriving DecidableEq, Repr

namespace Feature

def id : Feature → Int
  | .node id _ => id
  | .way id => id
  | .relation id => id

/-- Read the id of a row: its first column, blanks around it dropped. -/
def decodeId (row : Row) : Except RunError Int :=
  match column? row 0 with
  | none => .error (.rowShape .missingId)
  | some text =>
      match Text.int64? (Text.trim text) with
      | some id => .ok id
      | none => .error (.rowShape (.badId text))

def decode (kind : ResultKind) (row : Row) : Except RunError Feature := do
  let id ← decodeId row
  match kind with
  | .point =>
      match column? row 1 with
      | some position => return .node id position
      | none => throw (.rowShape (.noPosition id))
  | .way => return .way id
  | .relation => return .relation id

end Feature

end MapAudit.Run
