import MapAudit.Kind

/-!
# Built-in sources

The four collections of features that every check may read.  Three of them are
stored; the polygons of relations are assembled by a statement of their own.
-/

namespace MapAudit

set_option autoImplicit false

/-- A collection of features every check may read. -/
inductive Builtin where
  | nodes
  | waysLinestring
  | waysBbox
  | relationsPolygon
  deriving DecidableEq, Repr

namespace Builtin

def all : List Builtin := [.nodes, .waysLinestring, .waysBbox, .relationsPolygon]

/-- The relation that holds a built-in source. -/
def name : Builtin → String
  | .nodes => "nodes"
  | .waysLinestring => "ways_linestring"
  | .waysBbox => "ways_bbox"
  | .relationsPolygon => "relations_polygon"

def find? (name : String) : Option Builtin :=
  all.find? fun source => source.name = name

def feature : Builtin → FeatureKind
  | .nodes => .node
  | .waysLinestring => .way
  | .waysBbox => .way
  | .relationsPolygon => .relation

def geometry : Builtin → GeometryKind
  | .nodes => .point
  | .waysLinestring => .linestring
  | .waysBbox => .polygon
  | .relationsPolygon => .polygon

/-- Assembles the polygon of each relation from its way members. -/
def relationsPolygonSql : String :=
  "\nCREATE TEMP TABLE relations_polygon AS\n" ++
  "SELECT\n" ++
  "    el.id AS id,\n" ++
  "    ST_Buffer(ST_Polygonize(ways.linestring), 0) AS geom,\n" ++
  "    el.tags\n" ++
  "FROM\n" ++
  "    relations AS el\n" ++
  "    JOIN relation_members ON\n" ++
  "        relation_members.relation_id = el.id AND\n" ++
  "        relation_members.member_type = 'W'\n" ++
  "    JOIN ways ON\n" ++
  "        ways.id = relation_members.member_id AND\n" ++
  "        ST_NPoints(ways.linestring) > 1\n" ++
  "GROUP BY\n" ++
  "    el.id;\n"

/-- The statement that creates a built-in source, where the store lacks it. -/
def setup? : Builtin → Option String
  | .relationsPolygon => some relationsPolygonSql
  | _ => none

@[simp] theorem find?_name (source : Builtin) : find? source.name = some source := by
  cases source <;> rfl

theorem name_of_find? {name : String} {source : Builtin} (found : find? name = some source) :
    source.name = name := by
  simpa using List.find?_some found

end Builtin

end MapAudit
