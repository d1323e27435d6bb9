import MapAudit.Kind
import MapAudit.Predicate.Condition
import MapAudit.Text.Blank

/-!
# Requests

A request names a relation that is made from a source: either the source's
features that satisfy a predicate, or the source's features with their geometry
grown by a distance.
-/

namespace MapAudit

set_option autoImplicit false

/-- The alias under which a statement reads the source of its request. -/
def sourceAlias : String := "el"

/-- What a filter goes by.  What its statement says is derived from the predicate once, and
kept. -/
structure Criterion where
  predicate : Predicate
  /-- The condition on the rows of the source. -/
  condition : String
  /-- The relations that the source is joined with. -/
  joins : List String
  condition_eq : condition = predicate.condition sourceAlias
  joins_eq : joins = predicate.targets
  deriving Repr

def Criterion.of (predicate : Predicate) : Criterion where
  predicate
  condition := predicate.condition sourceAlias
  joins := predicate.targets
  condition_eq := rfl
  joins_eq := rfl

/-- What a request does with its source. -/
inductive Operation where
  /-- Keep the features that satisfy the predicate of the criterion. -/
  | filter (criterion : Criterion)
  /-- Grow every geometry by the distance. -/
  | buffer (distance : String)
  deriving Repr, Inhabited

/-- One named step of a check. -/
structure Request where
  name : String
  /-- The declared kind of the features. -/
  feature : FeatureKind
  /-- The declared kind of the geometries. -/
  geometry : GeometryKind
  /-- The relation that is read. -/
  source : String
  operation : Operation
  deriving Repr

namespace Request

def isBuffer (r : Request) : Bool :=
  match r.operation with
  | .buffer _ => true
  | .filter _ => false

def joins (r : Request) : List String :=
  match r.operation with
  | .filter criterion => criterion.joins
  | .buffer _ => []

/-- The condition on the source rows of a filter. -/
def condition? (r : Request) : Option String :=
  match r.operation with
  | .filter criterion => some criterion.condition
  | .buffer _ => none

/-- A filter, unless its predicate intersects with the alias of the source. -/
def makeFilter (name : String) (predicate : Predicate) : Except CheckError Operation :=
  let criterion := Criterion.of predicate
  if sourceAlias ∈ criterion.joins then
    .error ((CheckError.invalidLiteral .intersectsTarget sourceAlias).concerning name)
  else .ok (.filter criterion)

/-- A buffer by the trimmed distance. -/
def makeBuffer (name distance : String) : Except CheckError Operation := do
  let distance := Text.trim distance
  (checkDistance distance).mapError (·.concerning name)
  return .buffer distance

/-- What a request does, given what its declaration holds: a predicate or a
distance, never both and never neither. -/
def makeOperation (name : String) :
    Option Predicate → Option String → Except CheckError Operation
  | some predicate, none => makeFilter name predicate
  | none, some distance => makeBuffer name distance
  | some _, some _ => .error (.malformedRequest name .filterAndBuffer)
  | none, none => .error (.malformedRequest name .neitherFilterNorBuffer)

def make (name : String) (feature : FeatureKind) (geometry : GeometryKind) (source : String)
    (predicate : Option Predicate) (distance : Option String) : Except CheckError Request := do
  checkIdentifier name
  (checkIdentifier source).mapError (·.concerning name)
  if name = sourceAlias then throw (.invalidLiteral .requestName name)
  let operation ← makeOperation name predicate distance
  return { name, feature, geometry, source, operation }

end Request

end MapAudit
