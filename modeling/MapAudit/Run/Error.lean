/-!
# Why a run fails
-/

namespace MapAudit.Run

set_option autoImplicit false

inductive RowFault where
  | missingId
  | badId (text : String)
  | noPosition (id : Int)
  /-- A fault described in words. -/
  | described (text : String)
  deriving DecidableEq, Repr

def RowFault.message : RowFault → String
  | .missingId => "missing id column"
  | .badId text => "id '" ++ text ++ "' is not an integer"
  | .noPosition id => "node " ++ toString id ++ " has no position"
  | .described text => text

inductive RunError where
  /-- The store refused a statement. -/
  | store (text : String)
  | rowShape (fault : RowFault)
  | unknownCheck (id : String)
  | missingOutput (id : String)
  deriving DecidableEq, Repr

namespace RunError

def code : RunError → String
  | .store _ => "GEOCHECK_RUN_STORE"
  | .rowShape _ => "GEOCHECK_RUN_ROW_SHAPE"
  | .unknownCheck _ => "GEOCHECK_RUN_UNKNOWN_CHECK"
  | .missingOutput _ => "GEOCHECK_RUN_MISSING_OUTPUT"

def message : RunError → String
  | .store text => "Store error: " ++ text
  | .rowShape fault => "Unexpected result row: " ++ fault.message
  | .unknownCheck id => "Check not registered: " ++ id
  | .missingOutput id => "Check has no output statement: " ++ id

end RunError

end MapAudit.Run
