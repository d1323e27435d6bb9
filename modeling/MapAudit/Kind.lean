import MapAudit.CheckError

/-!
# Kinds of features, geometries and results

A feature is a node, a way or a relation of the map; its geometry is a point, a
line or an area.  The kind of a result says what an output row holds.
-/

namespace MapAudit

set_option autoImplicit false

/-- The object type of a feature. -/
inductive FeatureKind where
  | node
  | way
  | relation
  deriving DecidableEq, Repr

namespace FeatureKind

def name : FeatureKind → String
  | .node => "node"
  | .way => "way"
  | .relation => "relation"

def ofName? (text : String) : Option FeatureKind :=
  if text = "node" then some .node
  else if text = "way" then some .way
  else if text = "relation" then some .relation
  else none

def read (text : String) : Except CheckError FeatureKind :=
  match ofName? text with
  | some kind => .ok kind
  | none => .error (.malformedDocument (.unknownFeature text))

@[simp] theorem ofName?_name (kind : FeatureKind) : ofName? kind.name = some kind := by
  cases kind <;> rfl

end FeatureKind

/-- The shape of a feature's geometry. -/
inductive GeometryKind where
  | point
  | linestring
  | polygon
  | multipolygon
  deriving DecidableEq, Repr

namespace GeometryKind

def name : GeometryKind → String
  | .point => "point"
  | .linestring => "linestring"
  | .polygon => "polygon"
  | .multipolygon => "multipolygon"

def ofName? (text : String) : Option GeometryKind :=
  if text = "point" then some .point
  else if text = "linestring" then some .linestring
  else if text = "polygon" then some .polygon
  else if text = "multipolygon" then some .multipolygon
  else none

def read (text : String) : Except CheckError GeometryKind :=
  match ofName? text with
  | some kind => .ok kind
  | none => .error (.malformedDocument (.unknownGeometry text))

@[simp] theorem ofName?_name (kind : GeometryKind) : ofName? kind.name = some kind := by
  cases kind <;> rfl

end GeometryKind

/-- What an output row holds. -/
inductive ResultKind where
  /-- The id of a node and its position. -/
  | point
  /-- The id of a way. -/
  | way
  /-- The id of a relation. -/
  | relation
  deriving DecidableEq, Repr

namespace ResultKind

def name : ResultKind → String
  | .point => "point"
  | .way => "way"
  | .relation => "relation"

def ofName? (text : String) : Option ResultKind :=
  if text = "point" then some .point
  else if text = "way" then some .way
  else if text = "relation" then some .relation
  else none

/-- What the rows about a kind of feature hold. -/
def ofFeature : FeatureKind → ResultKind
  | .node => .point
  | .way => .way
  | .relation => .relation

end ResultKind

end MapAudit
