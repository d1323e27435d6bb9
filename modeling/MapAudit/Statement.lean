import MapAudit.Request
import MapAudit.Text.Cut

/-!
# Statements

The statement of a request: one that creates a temporary relation of its name, or,
for the sink, a query whose rows are reported.
-/

namespace MapAudit

set_option autoImplicit false

/-- What a statement is for. -/
inductive Role where
  /-- Creates a built-in source that the store lacks. -/
  | setup
  /-- Creates the relation of a request. -/
  | materialize
  /-- Reports the features of the sink. -/
  | output
  /-- Drops a relation that the pipeline created. -/
  | teardown
  deriving DecidableEq, Repr

namespace Role

/-- The name of a role in logs and reports. -/
def name : Role → String
  | .setup => "SETUP"
  | .materialize => "MATERIALIZE"
  | .output => "OUTPUT"
  | .teardown => "TEARDOWN"

/-- The name of a role in compiled output. -/
def key : Role → String
  | .setup => "setup"
  | .materialize => "materialize"
  | .output => "output"
  | .teardown => "teardown"

def all : List Role := [.setup, .materialize, .output, .teardown]

def ofName? (text : String) : Option Role :=
  all.find? fun role => role.name = text

def creates : Role → Bool
  | .setup => true
  | .materialize => true
  | .output => false
  | .teardown => false

end Role

/-- One statement of a pipeline, and the relation it belongs to. -/
structure Statement where
  relation : String
  role : Role
  sql : String
  deriving DecidableEq, Repr

/-! ## Writing statements -/

/-- The source under its alias, joined with every row of the other relations. -/
def fromClause (source : String) (joins : List String) : String :=
  "FROM " ++ source ++ " AS " ++ sourceAlias ++
    Text.joinWith "" (joins.map fun join => "\n    CROSS JOIN " ++ join)

/-- The last lines of a filter: where its rows come from, and which are kept. -/
def selection (r : Request) (criterion : Criterion) : String :=
  fromClause r.source criterion.joins ++ "\nWHERE " ++ criterion.condition ++ ";\n"

/-- Create the relation of a buffer. -/
def bufferSql (r : Request) (distance : String) : String :=
  "\nCREATE TEMP TABLE " ++ r.name ++ " AS\nSELECT\n    " ++
  sourceAlias ++ ".id AS id,\n    ST_Buffer(" ++ sourceAlias ++ ".geom, " ++ distance ++
  ") AS geom,\n    " ++ Sql.quote r.feature.name ++ " AS obj,\n    " ++
  sourceAlias ++ ".tags AS tags\nFROM " ++ r.source ++ " AS " ++ sourceAlias ++ ";\n"

/-- Create the relation of a filter. -/
def filterSql (r : Request) (criterion : Criterion) : String :=
  "\nCREATE TEMP TABLE " ++ r.name ++ " AS\nSELECT DISTINCT\n    " ++
  sourceAlias ++ ".id AS id,\n    " ++ Sql.quote r.feature.name ++ " AS obj,\n    " ++
  sourceAlias ++ ".geom AS geom,\n    " ++ sourceAlias ++ ".tags AS tags\n" ++
  selection r criterion

/-- The columns that report a kind of feature: nodes with their position, ways and
relations by their id alone. -/
def outputColumns : FeatureKind → List String
  | .node => [sourceAlias ++ ".id AS id", "ST_AsText(" ++ sourceAlias ++ ".geom) AS geom"]
  | .way => [sourceAlias ++ ".id AS id"]
  | .relation => [sourceAlias ++ ".id AS id"]

/-- Report the features of a filter. -/
def outputSql (r : Request) (criterion : Criterion) : String :=
  "\nSELECT DISTINCT\n    " ++ Text.joinWith ",\n    " (outputColumns r.feature) ++ "\n" ++
  selection r criterion

namespace Request

/-- The text of the statement of a request that is, or is not, the sink.  A buffer
cannot be the sink. -/
def sql (r : Request) (isSink : Bool) : Except CheckError String :=
  match r.operation, isSink with
  | .buffer distance, false => .ok (bufferSql r distance)
  | .buffer _, true => .error (.invalidSink r.name)
  | .filter criterion, false => .ok (filterSql r criterion)
  | .filter criterion, true => .ok (outputSql r criterion)

def statement (r : Request) (isSink : Bool) : Except CheckError Statement := do
  let text ← r.sql isSink
  return ⟨r.name, if isSink then .output else .materialize, text⟩

end Request

end MapAudit
