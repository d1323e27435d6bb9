import MapAudit.Proofs.Cleanup
import Mathlib.Data.List.TakeWhile

/-!
# What a pipeline begins with

The polygons of relations are created where the plan holds them, which need not be before
every request.  `Plan.opening` is what a plan holds before its first request, and a built-in
source stands there exactly when following the dependencies in their order leads to it
before a request is finished (`mem_opening_iff_meetsFirst`).  So this is when a pipeline
begins by creating the polygons.  Otherwise a request that is created earlier may hide a
table that they are assembled from.
-/

namespace MapAudit

set_option autoImplicit false

open Sql (effect)

def Builtin.bears (name : String) : Bool :=
  (find? name).isSome

theorem Builtin.bears_name (source : Builtin) : bears source.name := by
  rw [bears, find?_name]
  rfl

namespace Plan

/-- The built-in sources that a plan holds before its first request. -/
def opening (plan : Plan) : List String :=
  plan.names.takeWhile Builtin.bears

/-- The plan holds built-in sources only. -/
def Plain (plan : Plan) : Prop :=
  ∀ name ∈ plan.names, Builtin.bears name

theorem mem_takeWhile_append {α : Type} {p : α → Bool} {front back : List α} {a : α} :
    a ∈ (front ++ back).takeWhile p ↔
      a ∈ front.takeWhile p ∨ (∀ b ∈ front, p b) ∧ a ∈ back.takeWhile p := by
  induction front with
  | nil => simp
  | cons first rest ih =>
      rw [List.cons_append]
      by_cases holds : p first
      · simp [holds, ih, or_assoc]
      · simp [holds]

theorem opening_of_plain {plan : Plan} (plain : plan.Plain) : plan.opening = plan.names :=
  List.takeWhile_eq_self_iff.2 plain

theorem mem_opening_add {plan : Plan} {e : Relation} {goal : String} :
    goal ∈ (plan.add e).opening ↔
      goal ∈ plan.opening ∨ plan.Plain ∧ Builtin.bears e.name ∧ goal = e.name := by
  by_cases there : e.name ∈ plan.names
  · rw [add_of_mem there]
    refine ⟨Or.inl, ?_⟩
    rintro (opens | ⟨plain, -, rfl⟩)
    · exact opens
    · rwa [opening_of_plain plain]
  · rw [add_of_not_mem there, opening, names_append, mem_takeWhile_append]
    by_cases builtin : Builtin.bears e.name <;> simp [builtin, opening, Plain]

theorem plain_add {plan : Plan} {e : Relation} :
    (plan.add e).Plain ↔ plan.Plain ∧ Builtin.bears e.name := by
  constructor
  · intro plain
    exact ⟨fun name member => plain name (mem_names_add.2 (Or.inl member)),
      plain e.name (mem_names_add.2 (Or.inr rfl))⟩
  · rintro ⟨plain, builtin⟩ name member
    rcases mem_names_add.1 member with old | rfl
    · exact plain name old
    · exact builtin

theorem mem_opening_cons {plan : Plan} {e : Relation} {goal : String} :
    goal ∈ opening (e :: plan) ↔ Builtin.bears e.name ∧ (goal = e.name ∨ goal ∈ plan.opening) := by
  by_cases builtin : Builtin.bears e.name <;> simp [opening, builtin]

/-- A second plan opens the first one further only if the first has no request. -/
theorem mem_opening_merge {plan other : Plan} {goal : String} :
    goal ∈ (plan.merge other).opening ↔
      goal ∈ plan.opening ∨ plan.Plain ∧ goal ∈ other.opening := by
  induction other generalizing plan with
  | nil => simp [opening]
  | cons e rest ih =>
      rw [show plan.merge (e :: rest) = (plan.add e).merge rest from rfl, ih, mem_opening_add,
        plain_add, mem_opening_cons, or_assoc, and_assoc, ← and_or_left, ← and_or_left]

/-- Two plans together hold built-in sources only if both do. -/
theorem plain_merge {plan other : Plan} :
    (plan.merge other).Plain ↔ plan.Plain ∧ other.Plain := by
  constructor
  · intro plain
    exact ⟨fun name member => plain name (mem_names_merge.2 (Or.inl member)),
      fun name member => plain name (mem_names_merge.2 (Or.inr member))⟩
  · rintro ⟨first, second⟩ name member
    exact (mem_names_merge.1 member).elim (first name) (second name)

end Plan

namespace Check

variable {c : Check} {goal : Builtin}

/-! ## Meeting a built-in source -/

/-- Following dependencies from a name, always to one before which a request lists
built-in sources only, leads to the built-in source `goal`. -/
inductive MeetsFirst (c : Check) (goal : Builtin) : String → Prop where
  | here : MeetsFirst c goal goal.name
  | through {r : Request} {before after : List String} {next : String} (request : r ∈ c.requests)
      (split : r.dependencies = before ++ next :: after)
      (builtin : ∀ name ∈ before, Builtin.bears name) (onward : MeetsFirst c goal next) :
      MeetsFirst c goal r.name

/-- The first of some dependencies that leads to the built-in source has built-in sources
before it only. -/
def MeetsAmong (c : Check) (goal : Builtin) : List String → Prop
  | [] => False
  | name :: rest => c.MeetsFirst goal name ∨ Builtin.bears name ∧ c.MeetsAmong goal rest

theorem meetsAmong_iff {names : List String} :
    c.MeetsAmong goal names ↔ ∃ before next after, names = before ++ next :: after ∧
      (∀ name ∈ before, Builtin.bears name) ∧ c.MeetsFirst goal next := by
  induction names with
  | nil => simp [MeetsAmong]
  | cons first rest ih =>
      rw [MeetsAmong, ih]
      constructor
      · rintro (meets | ⟨builtin, before, next, after, rfl, others, meets⟩)
        · exact ⟨[], first, rest, rfl, nofun, meets⟩
        · exact ⟨first :: before, next, after, rfl, by simpa [builtin] using others, meets⟩
      · rintro ⟨before, next, after, split, builtin, meets⟩
        cases before with
        | nil =>
            obtain ⟨rfl, -⟩ := List.cons.inj split
            exact Or.inl meets
        | cons name before =>
            obtain ⟨rfl, rfl⟩ := List.cons.inj split
            exact Or.inr ⟨builtin _ (by simp), before, next, after, rfl,
              fun name member => builtin name (by simp [member]), meets⟩

theorem not_bears_of_find? {name : String} {r : Request} (found : c.find? name = some r) :
    Builtin.bears name = false := by
  rw [Builtin.bears, builtin_of_find? found]
  rfl

/-- A built-in source leads nowhere but to itself. -/
theorem meetsFirst_of_bears {name : String} (builtin : Builtin.bears name) :
    c.MeetsFirst goal name ↔ name = goal.name := by
  constructor
  · rintro (_ | ⟨request, -, -, -⟩)
    · rfl
    · rw [not_bears_of_find? (find?_eq_some_iff.2 ⟨request, rfl⟩)] at builtin
      cases builtin
  · rintro rfl
    exact .here

/-- A request leads to it through its dependencies. -/
theorem meetsFirst_of_find? {name : String} {r : Request} (found : c.find? name = some r) :
    c.MeetsFirst goal name ↔ c.MeetsAmong goal r.dependencies := by
  rw [meetsAmong_iff]
  constructor
  · rintro (_ | ⟨request, split, builtin, onward⟩)
    · have shadowed := not_bears_of_find? found
      rw [goal.bears_name] at shadowed
      cases shadowed
    · cases (find?_eq_some_iff.2 ⟨request, rfl⟩).symm.trans found
      exact ⟨_, _, _, split, builtin, onward⟩
  · rintro ⟨before, next, after, split, builtin, onward⟩
    rw [← find?_name found]
    exact .through (find?_mem found) split builtin onward

/-- The plan of a name holds no request exactly when the name is that of a built-in source. -/
theorem plain_of_resolve {path : List String} {name : String} {plan : Plan}
    (resolved : c.resolve path name = .ok plan) : plan.Plain ↔ Builtin.bears name := by
  refine ⟨fun plain => plain name (mem_names_of_resolve resolved), fun builtin => ?_⟩
  rcases resolve_cases resolved with ⟨source, known, rfl⟩ | ⟨r, found, -⟩
  · intro other member
    obtain rfl := List.mem_singleton.1 member
    exact source.bears_name
  · rw [not_bears_of_find? found] at builtin
    cases builtin

/-- **The loop over the dependencies**: a plan without requests is opened further by the
first dependency that leads to the built-in source, if nothing before it is a request. -/
theorem Joined.mem_opening {path joins : List String} {plan result : Plan}
    (joined : Joined c path plan joins result)
    (each : ∀ join ∈ joins, ∀ other, c.resolve path join = .ok other →
      (goal.name ∈ other.opening ↔ c.MeetsFirst goal join)) :
    goal.name ∈ result.opening ↔
      goal.name ∈ plan.opening ∨ plan.Plain ∧ c.MeetsAmong goal joins := by
  induction joined with
  | nil plan => simp [MeetsAmong]
  | @present plan result join joins there rest ih =>
      rw [ih fun join member => each join (List.mem_cons_of_mem _ member), MeetsAmong]
      constructor
      · rintro (opens | ⟨plain, later⟩)
        · exact Or.inl opens
        · exact Or.inr ⟨plain, Or.inr ⟨plain join there, later⟩⟩
      · rintro (opens | ⟨plain, meets | ⟨-, later⟩⟩)
        · exact Or.inl opens
        · -- In a plan without requests the join is a built-in source, so it is met itself.
          have same : join = goal.name := (meetsFirst_of_bears (plain join there)).1 meets
          rw [Plan.opening_of_plain plain, ← same]
          exact Or.inl there
        · exact Or.inr ⟨plain, later⟩
  | @absent plan other result join joins missing resolved rest ih =>
      rw [ih fun join member => each join (List.mem_cons_of_mem _ member), MeetsAmong,
        Plan.mem_opening_merge, Plan.plain_merge, each join List.mem_cons_self other resolved,
        plain_of_resolve resolved, or_assoc, and_assoc, ← and_or_left]

/-- **A plan opens with a built-in source** exactly when following the dependencies meets
it first. -/
theorem mem_opening_iff_meetsFirst {path : List String} {name : String} {plan : Plan}
    (resolved : c.resolve path name = .ok plan) :
    goal.name ∈ plan.opening ↔ c.MeetsFirst goal name := by
  -- Along the path, since a dependency is resolved with the request put on it.
  induction path, name using path_induction (c := c) generalizing plan with
  | step path name ih =>
      rcases resolve_cases resolved with ⟨source, known, rfl⟩ | ⟨r, found, fresh⟩
      · obtain rfl := Builtin.name_of_find? known
        have opens : Plan.opening [source.relation] = [source.name] := by
          simp [Plan.opening, source.bears_name]
        rw [opens, List.mem_singleton, meetsFirst_of_bears source.bears_name]
        exact eq_comm
      · obtain ⟨below, source, joined, first, -, joins, rfl⟩ :=
          (resolve_eq_ok_iff found fresh).1 resolved
        have distinct : below.names.Nodup := (sound_of_resolve first).distinct
        have loop : Joined c (path ++ [name]) [] r.dependencies joined :=
          .absent (by simp) first (by rwa [Plan.nil_merge distinct])
        have own : Builtin.bears r.name = false := by
          rw [find?_name found]
          exact not_bears_of_find? found
        have kept : goal.name ∈ Plan.opening (joined ++ [r.relation source]) ↔
            goal.name ∈ joined.opening := by
          rw [Plan.opening, Plan.names_append, Plan.mem_takeWhile_append]
          simp [own, Plan.opening]
        rw [kept, loop.mem_opening fun join _ other solved => ih r found fresh join solved,
          meetsFirst_of_find? found]
        simp [Plan.opening, Plan.Plain]

/-! ## The place of the setup -/

variable {p : Pipeline}

/-- The statement of a built-in source sets it up, and that of a request makes it or asks
for it. -/
theorem role_of_statementOf {relation : Relation} {s : Statement}
    (stated : c.statementOf relation = .ok (some s)) :
    Builtin.bears relation.name = true ∧ s.role = .setup ∨
      Builtin.bears relation.name = false ∧ (s.role = .materialize ∨ s.role = .output) := by
  rcases statementOf_cases stated with ⟨source, sql, builtin, -, rfl⟩ | ⟨r, found, stated⟩
  · exact Or.inl ⟨by rw [Builtin.bears, builtin]; rfl, rfl⟩
  · refine Or.inr ⟨not_bears_of_find? found, ?_⟩
    obtain ⟨-, role, -⟩ := Request.statement_eq_ok_iff.1 stated
    rw [role]
    split
    · exact Or.inr rfl
    · exact Or.inl rfl

/-- Statements make or ask for nothing exactly when their plan has no request. -/
theorem plain_iff_of_statementsOf {plan : Plan} {statements : List Statement}
    (written : c.statementsOf plan = .ok statements) :
    plan.Plain ↔ ∀ t ∈ statements, t.role ≠ .materialize ∧ t.role ≠ .output := by
  constructor
  · intro plain t member
    obtain ⟨relation, inPlan, stated⟩ := (mem_statementsOf written).1 member
    have builtin := plain relation.name (Plan.mem_names_of_mem inPlan)
    rcases role_of_statementOf stated with ⟨-, setup⟩ | ⟨request, -⟩
    · simp [setup]
    · rw [request] at builtin
      cases builtin
  · intro idle name member
    obtain ⟨relation, inPlan, rfl⟩ := List.mem_map.1 member
    obtain ⟨s?, here⟩ := exists_statementOf written inPlan
    rcases statementOf_eq_ok here with ⟨source, builtin, -⟩ | ⟨r, s, -, -, rfl⟩
    · rw [Builtin.bears, builtin]
      rfl
    · have unused := idle s ((mem_statementsOf written).2 ⟨relation, inPlan, here⟩)
      rcases role_of_statementOf here with ⟨builtin, -⟩ | ⟨-, materialize | output⟩
      · exact builtin
      · exact absurd materialize unused.1
      · exact absurd output unused.2

theorem eq_of_setup (compiled : c.compile = .ok p) {s : Statement} (member : s ∈ p.statements)
    (setup : s.role = .setup) :
    s = ⟨Builtin.relationsPolygon.name, .setup, Builtin.relationsPolygonSql⟩ := by
  rcases statement_cases compiled member with same | ⟨r, -, -, stated⟩
  · exact same
  · obtain ⟨-, role, -⟩ := Request.statement_eq_ok_iff.1 stated
    rw [setup] at role
    split at role <;> cases role

/-- Nothing is made or asked for before the setup exactly when the plan opens with the
polygons of relations. -/
theorem idle_before_setup_iff (compiled : c.compile = .ok p) {before after : List Statement}
    {s : Statement} (split : p.statements = before ++ s :: after) (setup : s.role = .setup) :
    (∀ t ∈ before, t.role ≠ .materialize ∧ t.role ≠ .output) ↔
      Builtin.relationsPolygon.name ∈ p.plan.opening := by
  obtain ⟨planned, written, -, -⟩ := compile_eq_ok_iff.1 compiled
  obtain rfl := eq_of_setup compiled (by simp [split]) setup
  rw [split] at written
  obtain ⟨front, relation, back, whole, earlier, stated⟩ := exists_split_of_statementsOf written
  have named : relation.name = Builtin.relationsPolygon.name :=
    (relation_of_statementOf stated).symm
  have absent : Builtin.relationsPolygon.name ∉ front.names := by
    have distinct : p.plan.names.Nodup := (sound_of_resolve planned).distinct
    rw [whole, Plan.names_append, Plan.names_cons, named, List.nodup_append] at distinct
    exact fun member => distinct.2.2 _ member _ List.mem_cons_self rfl
  rw [← plain_iff_of_statementsOf earlier, whole, Plan.opening, Plan.names_append,
    Plan.mem_takeWhile_append, Plan.names_cons, named,
    List.takeWhile_cons_of_pos (Builtin.bears_name _)]
  constructor
  · exact fun plain => Or.inr ⟨plain, List.mem_cons_self⟩
  · rintro (early | ⟨plain, -⟩)
    · exact absurd (List.takeWhile_subset _ early) absent
    · exact plain

/-- A pipeline whose plan needs the polygons of relations creates them. -/
theorem exists_setup (compiled : c.compile = .ok p)
    (needed : Builtin.relationsPolygon.name ∈ p.plan.names) :
    ∃ s ∈ p.statements, s.role = .setup := by
  obtain ⟨-, written, -, -⟩ := compile_eq_ok_iff.1 compiled
  obtain ⟨relation, inPlan, named⟩ := List.mem_map.1 needed
  have builtin : Builtin.find? relation.name = some .relationsPolygon := by
    rw [named, Builtin.find?_name]
  exact ⟨_, (mem_statementsOf written).2 ⟨relation, inPlan, statementOf_builtin builtin⟩, rfl⟩

end Check

namespace Pipeline

/-- The setup of a pipeline comes before anything is made or asked for. -/
def SetsUpFirst (p : Pipeline) : Prop :=
  ∀ before s after, p.statements = before ++ s :: after → s.role = .setup →
    ∀ t ∈ before, t.role ≠ .materialize ∧ t.role ≠ .output

/-- A relation created before the setup hides a table that the setup reads. -/
def HidesTable (p : Pipeline) (table : String) : Prop :=
  ∃ before s after, p.statements = before ++ s :: after ∧ s.role = .setup ∧
    table ∈ createdBy before ∧ ∃ reads, effect s.sql = .create s.relation reads ∧ table ∈ reads

end Pipeline

namespace Check

variable {c : Check} {p : Pipeline}

/-- A pipeline that sets up first has created nothing before. -/
theorem createdBy_before_setup (compiled : c.compile = .ok p) (first : p.SetsUpFirst)
    {before after : List Statement} {s : Statement} (split : p.statements = before ++ s :: after)
    (setup : s.role = .setup) : createdBy before = ∅ := by
  rw [Finset.eq_empty_iff_forall_notMem]
  intro name created
  obtain ⟨t, earlier, creates, -⟩ := mem_createdBy.1 created
  have unused := first before s after split setup t earlier
  have again : t.role = .setup := by
    cases role : t.role with
    | setup => rfl
    | materialize => exact absurd role unused.1
    | output => exact absurd role unused.2
    | teardown =>
        rw [role] at creates
        cases creates
  -- Then it is the same statement, which stands in a pipeline once.
  have same : t = s := by
    rw [eq_of_setup compiled (by simp [split, earlier]) again,
      eq_of_setup compiled (by simp [split]) setup]
  have distinct := nodup_relations compiled
  rw [split, List.map_append, List.map_cons, List.nodup_append] at distinct
  exact distinct.2.2 _ (List.mem_map_of_mem earlier) _ List.mem_cons_self (by rw [same])

/-- **When the polygons of relations are set up first.**  A pipeline whose plan holds them
has a setup, and it comes before every other statement exactly when following the
dependencies from the sink meets the polygons first.  Then nothing hides a table that
they are assembled from. -/
theorem setsUpFirst_iff_meetsFirst (compiled : c.compile = .ok p)
    (needed : Builtin.relationsPolygon.name ∈ p.plan.names) :
    (∃ s ∈ p.statements, s.role = .setup) ∧
      (p.SetsUpFirst ↔ c.MeetsFirst .relationsPolygon c.sink.name) ∧
      (p.SetsUpFirst → ∀ table, ¬ p.HidesTable table) := by
  obtain ⟨s, member, setup⟩ := exists_setup compiled needed
  refine ⟨⟨s, member, setup⟩, ?_, ?_⟩
  · obtain ⟨planned, -, -, -⟩ := compile_eq_ok_iff.1 compiled
    rw [← mem_opening_iff_meetsFirst planned]
    constructor
    · intro first
      obtain ⟨before, after, split⟩ := List.append_of_mem member
      exact (idle_before_setup_iff compiled split setup).1 (first before s after split setup)
    · intro opens before t after split again
      exact (idle_before_setup_iff compiled split again).2 opens
  · rintro first table ⟨before, t, after, split, again, created, -⟩
    rw [createdBy_before_setup compiled first split again] at created
    simp at created

namespace Example

/-- The polygons of relations are met before the request that is joined with them is made. -/
theorem bordered_meetsFirst : bordered.MeetsFirst .relationsPolygon "named" := by
  have joined : (nodeFilter "inside" "nodes" (.intersects "relations_polygon")).dependencies =
      ["nodes"] ++ "relations_polygon" :: [] := rfl
  have read : (nodeFilter "named" "inside" (.hasTag "name")).dependencies =
      [] ++ "inside" :: [] := rfl
  have inside : bordered.MeetsFirst .relationsPolygon "inside" :=
    .through (by simp [requests, bordered]) joined (by decide) .here
  exact .through (by simp [requests, bordered]) read (by simp) inside

end Example

theorem bordered_setsUpFirst :
    Example.bordered.compile = .ok Example.borderedPipeline ∧
      Builtin.relationsPolygon.name ∈ Example.borderedPipeline.plan.names ∧
      (∃ s ∈ Example.borderedPipeline.statements, s.role = .setup) ∧
      Example.borderedPipeline.SetsUpFirst ∧
      ∀ table, ¬ Example.borderedPipeline.HidesTable table := by
  have planned : Builtin.relationsPolygon.name ∈ Example.borderedPipeline.plan.names := by decide
  obtain ⟨setup, first, shown⟩ := setsUpFirst_iff_meetsFirst Example.bordered_compile planned
  have opens := first.2 Example.bordered_meetsFirst
  exact ⟨Example.bordered_compile, planned, setup, opens, shown opens⟩

namespace Example

/-- A request takes the name of a table and is made before the polygons of relations. -/
def shadowing : Check where
  issueClass := ⟨"20", "9003", "2", "Road through a border"⟩
  earlier := [⟨"ways", .way, .linestring, "ways_linestring", .filter (.of (.hasTag "highway"))⟩]
  sink := ⟨"crossing", .way, .linestring, "ways", .filter (.of (.intersects "relations_polygon"))⟩
  distinct := by decide
  unshadowed := by decide

def shadowingPipeline : Pipeline where
  issueClass := shadowing.issueClass
  plan := [
    ⟨"ways_linestring", .way, .linestring⟩, ⟨"ways", .way, .linestring⟩,
    ⟨"relations_polygon", .relation, .polygon⟩, ⟨"crossing", .way, .linestring⟩]
  statements := [
    ⟨"ways", .materialize,
      filterSql ⟨"ways", .way, .linestring, "ways_linestring", .filter (.of (.hasTag "highway"))⟩
        (.of (.hasTag "highway"))⟩,
    ⟨"relations_polygon", .setup, Builtin.relationsPolygonSql⟩,
    ⟨"crossing", .output, outputSql shadowing.sink (.of (.intersects "relations_polygon"))⟩]
  result := .way

theorem shadowing_made : ∀ r ∈ shadowing.requests, r.Made := by decide

theorem shadowing_compile : shadowing.compile = .ok shadowingPipeline := by
  have planned : shadowing.plan = .ok shadowingPipeline.plan := by decide +kernel
  exact compile_eq_ok_iff.2 ⟨planned, rfl, rfl, rfl⟩

end Example

/-- The polygons of relations are assembled from a request that bears the name of a
table, which was made before them. -/
theorem shadowing_hides_ways :
    (∀ r ∈ Example.shadowing.requests, r.Made) ∧
      Example.shadowing.compile = .ok Example.shadowingPipeline ∧
      Builtin.relationsPolygon.name ∈ Example.shadowingPipeline.plan.names ∧
      ¬ Example.shadowingPipeline.SetsUpFirst ∧ Example.shadowingPipeline.HidesTable "ways" := by
  refine ⟨Example.shadowing_made, Example.shadowing_compile, by decide, fun first => ?_,
    [_], _, [_], rfl, rfl, ?_, Builtin.memberTables, effect_relationsPolygonSql, by decide⟩
  · exact (first [_] _ [_] rfl rfl _ List.mem_cons_self).1 rfl
  · exact mem_createdBy.2 ⟨_, List.mem_cons_self, rfl, rfl⟩

end Check

end MapAudit
