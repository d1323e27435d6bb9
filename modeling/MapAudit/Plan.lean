import MapAudit.Check.Basic

/-!
# Plans

The order in which the relations of a check are made: everything a request reads
or is joined with comes before it, every name comes once, and the sink comes
last.  `Check.resolve` finds the order by following sources and joins; the *path*
holds the requests it is in the midst of, so meeting one of them again is a
cycle.  The requests that are not on the path grow fewer with every step, which
is why it ends on every check.
-/

namespace MapAudit

set_option autoImplicit false

/-- A relation of a plan, with the kinds its features and geometries have. -/
structure Relation where
  name : String
  feature : FeatureKind
  geometry : GeometryKind
  deriving DecidableEq, Repr

def Builtin.relation (source : Builtin) : Relation :=
  ⟨source.name, source.feature, source.geometry⟩

/-- The relations of a check in the order they are made. -/
abbrev Plan := List Relation

namespace Plan

def makes (plan : Plan) (name : String) : Bool :=
  plan.any fun relation => relation.name = name

/-- Add a relation unless one of its name is there. -/
def add (plan : Plan) (relation : Relation) : Plan :=
  if plan.makes relation.name then plan else plan ++ [relation]

/-- Add the relations of a second plan that are not there. -/
def merge (plan other : Plan) : Plan :=
  other.foldl add plan

end Plan

/-- The relation that a request makes from a source relation.  A buffer has
polygons whatever it grows; a filter keeps the geometry of its source. -/
def Request.relation (r : Request) (source : Relation) : Relation :=
  ⟨r.name, source.feature, if r.isBuffer then .polygon else source.geometry⟩

namespace Check

/-- The requests whose names are not on a path. -/
def offPath (c : Check) (path : List String) : List Request :=
  c.requests.filter fun r => r.name ∉ path

theorem find?_name {c : Check} {name : String} {r : Request} (found : c.find? name = some r) :
    r.name = name := by
  simpa using List.find?_some found

theorem find?_mem {c : Check} {name : String} {r : Request} (found : c.find? name = some r) :
    r ∈ c.requests :=
  List.mem_of_find?_eq_some found

/-- Going on to a request that is not on the path leaves fewer off it. -/
theorem length_offPath_lt {c : Check} {path : List String} {name : String} {r : Request}
    (found : c.find? name = some r) (fresh : name ∉ path) :
    (c.offPath (path ++ [name])).length < (c.offPath path).length := by
  have narrower : c.offPath (path ++ [name]) = (c.offPath path).filter (·.name ≠ name) := by
    simp only [offPath, List.filter_filter]
    congr 1
    funext r
    simp [Bool.and_comm]
  have mem : r ∈ c.offPath path := by
    simp only [offPath, List.mem_filter, decide_eq_true_eq]
    exact ⟨find?_mem found, find?_name found ▸ fresh⟩
  rw [narrower]
  exact List.length_filter_lt_length_iff_exists.2 ⟨r, mem, by simp [find?_name found]⟩

/-- The plan of the relation `name`, met along `path`. -/
def resolve (c : Check) (path : List String) (name : String) : Except CheckError Plan :=
  match Builtin.find? name with
  | some source => .ok [source.relation]
  | none =>
      match _found : c.find? name with
      | none => .error (.unknownReference name)
      | some r =>
          if _fresh : name ∈ path then .error (.cyclicDependency path name)
          else do
            let below ← CheckError.locate r.name (c.resolve (path ++ [name]) r.source)
            match below.getLast? with
            | none => throw (.unknownReference r.source)
            | some source =>
                let joined ← r.joins.foldlM
                  (fun (plan : Plan) join =>
                    if plan.makes join then pure plan
                    else do
                      let other ← CheckError.locate r.name (c.resolve (path ++ [name]) join)
                      return plan.merge other)
                  below
                return joined ++ [r.relation source]
  termination_by (c.offPath path).length
  decreasing_by
    all_goals exact length_offPath_lt _found _fresh

def plan (c : Check) : Except CheckError Plan :=
  c.resolve [] c.sink.name

end Check

end MapAudit
