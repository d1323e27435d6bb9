import MapAudit.Proofs.Teardown

/-!
# Names as the store reads them

A check compares names as they are written, but its statements write them without quotes,
and a store may read such names up to case.  For every reading that keeps the built-in names
and the alias of the source (`Sql.Reading`), the relations that a pipeline creates are told
apart exactly when the names of the intermediate requests are (`toldApart_iff`).  They are
when names are read as written, whatever the check, and when no name has a capital; a name
that differs from another in capitals only is accepted by the check and confused by a store
that folds them.
-/

namespace MapAudit

set_option autoImplicit false

open Sql (effect)

namespace Sql

/-- A name in lower case. -/
def fold (name : String) : String :=
  String.ofList (name.toList.map Char.toLower)

/-- How a store reads names, among which it keeps those that every check may use. -/
structure Reading where
  read : String → String
  keeps_builtin : ∀ source : Builtin, read source.name = source.name
  keeps_alias : read sourceAlias = sourceAlias

namespace Reading

/-- Names are read as they are written. -/
def exact : Reading where
  read name := name
  keeps_builtin _ := rfl
  keeps_alias := rfl

/-- Names are read in lower case. -/
def folded : Reading where
  read := fold
  keeps_builtin source := by cases source <;> decide
  keeps_alias := by decide

end Reading

end Sql

/-! ## What a pipeline creates -/

/-- The relation that the text of a statement creates. -/
def Statement.created? (s : Statement) : Option String :=
  match effect s.sql with
  | .create name _ => some name
  | .drop _ => none
  | .query _ => none

theorem Statement.Faithful.created?_eq {s : Statement} (faithful : s.Faithful) :
    s.created? = if s.role.creates then some s.relation else none := by
  obtain ⟨reads, acts⟩ := faithful.acts
  cases creates : s.role.creates <;> simp [Statement.created?, acts, creates]

namespace Pipeline

def created (p : Pipeline) : List String :=
  p.statements.filterMap Statement.created?

/-- A store that reads names in this way tells the relations a pipeline creates from each
other, from the alias of the source and from the built-in sources, except that a built-in
source the store lacks is itself created. -/
structure ToldApart (reading : Sql.Reading) (p : Pipeline) : Prop where
  distinct : (p.created.map reading.read).Nodup
  unaliased : ∀ name ∈ p.created, reading.read name ≠ reading.read sourceAlias
  unshadowed : ∀ name ∈ p.created, ∀ source : Builtin,
    reading.read name = reading.read source.name → name = source.name ∧ source.setup?.isSome

/-- Faithful statements create the relations of those whose role it is. -/
theorem created_of_faithful {p : Pipeline} (faithful : ∀ s ∈ p.statements, s.Faithful) :
    p.created = (p.statements.filter (·.role.creates)).map (·.relation) := by
  have byRole : p.created =
      p.statements.filterMap fun s => if s.role.creates then some s.relation else none :=
    List.filterMap_congr fun s member => (faithful s member).created?_eq
  rw [byRole, ← List.filterMap_eq_map, List.filterMap_filter]
  rfl

end Pipeline

namespace Check

variable {c : Check} {p : Pipeline} {reading : Sql.Reading}

/-- The sink is made from the request. -/
structure Intermediate (c : Check) (r : Request) : Prop where
  request : r ∈ c.requests
  inner : r.name ≠ c.sink.name
  reached : c.Reaches c.sink.name r.name

/-- The names of intermediate requests stay apart when they are read. -/
structure NamesApart (reading : Sql.Reading) (c : Check) : Prop where
  distinct : ∀ r s, c.Intermediate r → c.Intermediate s →
    reading.read r.name = reading.read s.name → r.name = s.name
  unaliased : ∀ r, c.Intermediate r → reading.read r.name ≠ reading.read sourceAlias
  unshadowed : ∀ r, c.Intermediate r → ∀ source : Builtin,
    reading.read r.name ≠ reading.read source.name

/-- A pipeline creates its intermediate requests, and the polygons of relations where they
are needed. -/
theorem mem_created_iff (made : ∀ r ∈ c.requests, r.Made) (compiled : c.compile = .ok p)
    {name : String} :
    name ∈ p.created ↔
      (name = Builtin.relationsPolygon.name ∧ name ∈ p.plan.names) ∨
        ∃ r, c.Intermediate r ∧ r.name = name := by
  obtain ⟨planned, written, -, -⟩ := compile_eq_ok_iff.1 compiled
  have creates : name ∈ p.created ↔ ∃ s ∈ p.statements, s.Creates name := by
    rw [Pipeline.created_of_faithful (faithful_of_compile made compiled)]
    simp [Statement.Creates, and_assoc]
  -- What the plan holds before the sink is available, and so is created unless it is stored.
  have available : name ∈ p.plan.names → name ≠ c.sink.name → name ∉ Builtin.storedNames →
      ∃ s ∈ p.statements, s.Creates name := fun member inner absent =>
    (available_of_mem written member inner).resolve_left absent
  rw [creates]
  constructor
  · rintro ⟨s, member, role, rfl⟩
    have inPlan : s.relation ∈ p.plan.names :=
      (sublist_of_statementsOf written).subset (List.mem_map_of_mem member)
    rcases statement_cases compiled member with rfl | ⟨r, request, own, stated⟩
    · exact Or.inl ⟨rfl, inPlan⟩
    · have inner : r.name ≠ c.sink.name := by
        intro sink
        rw [(Request.statement_eq_ok_iff.1 stated).2.1] at role
        simp [sink, Role.creates] at role
      have reached : c.Reaches c.sink.name r.name :=
        own ▸ (mem_names_iff_reaches planned).1 inPlan
      exact Or.inr ⟨r, ⟨request, inner, reached⟩, own⟩
  · rintro (⟨rfl, inPlan⟩ | ⟨r, ⟨request, inner, reached⟩, rfl⟩)
    · exact available inPlan (name_ne_builtin c.sink_mem_requests _).symm (by decide)
    · refine available ((mem_names_iff_reaches planned).2 reached) inner fun stored => ?_
      simp only [Builtin.storedNames, List.mem_cons, List.not_mem_nil, or_false] at stored
      rcases stored with same | same | same
      · exact name_ne_builtin request .nodes same
      · exact name_ne_builtin request .waysLinestring same
      · exact name_ne_builtin request .waysBbox same

theorem nodup_created (made : ∀ r ∈ c.requests, r.Made) (compiled : c.compile = .ok p) :
    p.created.Nodup := by
  rw [Pipeline.created_of_faithful (faithful_of_compile made compiled)]
  exact (nodup_relations compiled).sublist (List.filter_sublist.map _)

/-! ## When the relations are told apart -/

theorem NamesApart.toldApart (apart : c.NamesApart reading) (made : ∀ r ∈ c.requests, r.Made)
    (compiled : c.compile = .ok p) : p.ToldApart reading where
  distinct := by
    refine (List.nodup_map_iff_inj_on (nodup_created made compiled)).2 ?_
    intro first one second other same
    rcases (mem_created_iff made compiled).1 one with ⟨rfl, -⟩ | ⟨r, inner, rfl⟩ <;>
      rcases (mem_created_iff made compiled).1 other with ⟨rfl, -⟩ | ⟨s, inner', rfl⟩
    · rfl
    · exact absurd same.symm (apart.unshadowed s inner' _)
    · exact absurd same (apart.unshadowed r inner _)
    · exact apart.distinct r s inner inner' same
  unaliased name member := by
    rcases (mem_created_iff made compiled).1 member with ⟨rfl, -⟩ | ⟨r, inner, rfl⟩
    · rw [reading.keeps_builtin, reading.keeps_alias]
      decide
    · exact apart.unaliased r inner
  unshadowed name member source same := by
    rcases (mem_created_iff made compiled).1 member with ⟨rfl, -⟩ | ⟨r, inner, rfl⟩
    · rw [reading.keeps_builtin, reading.keeps_builtin] at same
      have polygons : Builtin.relationsPolygon = source := by
        rw [← Option.some.injEq, ← Builtin.find?_name, same, Builtin.find?_name]
      subst polygons
      exact ⟨rfl, rfl⟩
    · exact absurd same (apart.unshadowed r inner source)

/-- **The relations of a pipeline are told apart** exactly when the names of the
intermediate requests are. -/
theorem toldApart_iff (made : ∀ r ∈ c.requests, r.Made) (compiled : c.compile = .ok p) :
    p.ToldApart reading ↔ c.NamesApart reading := by
  refine ⟨fun apart => ?_, fun apart => apart.toldApart made compiled⟩
  have created : ∀ r, c.Intermediate r → r.name ∈ p.created := fun r inner =>
    (mem_created_iff made compiled).2 (Or.inr ⟨r, inner, rfl⟩)
  have distinct := (List.nodup_map_iff_inj_on (nodup_created made compiled)).1 apart.distinct
  refine ⟨?_, ?_, ?_⟩
  · exact fun r s inner inner' same => distinct _ (created r inner) _ (created s inner') same
  · exact fun r inner => apart.unaliased _ (created r inner)
  · intro r inner source same
    obtain ⟨shadows, -⟩ := apart.unshadowed _ (created r inner) source same
    exact name_ne_builtin inner.request source shadows

/-- Names that are read as they are written stay apart. -/
theorem namesApart_of_kept (made : ∀ r ∈ c.requests, r.Made)
    (kept : ∀ r ∈ c.requests, reading.read r.name = r.name) : c.NamesApart reading where
  distinct r s inner inner' same := by
    rwa [kept r inner.request, kept s inner'.request] at same
  unaliased r inner := by
    rw [kept r inner.request, reading.keeps_alias]
    exact (made r inner.request).name_ne_sourceAlias
  unshadowed r inner source := by
    rw [kept r inner.request, reading.keeps_builtin]
    exact name_ne_builtin inner.request source

/-- **When created relations keep their names apart.**  As they are written, they always
do.  In lower case they do exactly when the intermediate requests have names that stay
apart in lower case from each other, from the alias of the source and from the built-in
sources; that no name has a capital is enough. -/
theorem created_names_told_apart (made : ∀ r ∈ c.requests, r.Made)
    (compiled : c.compile = .ok p) :
    p.ToldApart .exact ∧ (p.ToldApart .folded ↔ c.NamesApart .folded) ∧
      ((∀ r ∈ c.requests, Sql.fold r.name = r.name) → p.ToldApart .folded) := by
  refine ⟨(toldApart_iff made compiled).2 ?_, toldApart_iff made compiled, fun lower => ?_⟩
  · exact namesApart_of_kept made fun r _ => rfl
  · exact (toldApart_iff made compiled).2 (namesApart_of_kept made lower)

theorem bordered_created_names_told_apart :
    (∀ r ∈ Example.bordered.requests, r.Made) ∧
      Example.bordered.compile = .ok Example.borderedPipeline ∧
      Example.borderedPipeline.ToldApart .exact ∧ Example.borderedPipeline.ToldApart .folded := by
  have made : ∀ r ∈ Example.bordered.requests, r.Made := by decide
  have lower : ∀ r ∈ Example.bordered.requests, Sql.fold r.name = r.name := by decide
  obtain ⟨apart, -, folded⟩ := created_names_told_apart made Example.bordered_compile
  exact ⟨made, Example.bordered_compile, apart, folded lower⟩

namespace Example

/-- One request is named as a built-in source, and two as each other, but for a capital. -/
def cased : Check where
  issueClass := ⟨"41", "9007", "2", "Node near a named one"⟩
  earlier := [
    nodeFilter "Nodes" "nodes" (.hasTag "name"),
    nodeFilter "zone" "ways_bbox" (.hasTag "landuse"),
    nodeFilter "Zone" "ways_bbox" (.hasTag "building")]
  sink := nodeFilter "hit" "nodes"
    (.all [.intersects "Nodes", .intersects "zone", .intersects "Zone"])
  distinct := by decide
  unshadowed := by decide

def casedPipeline : Pipeline where
  issueClass := cased.issueClass
  plan := [
    ⟨"nodes", .node, .point⟩, ⟨"Nodes", .node, .point⟩, ⟨"ways_bbox", .way, .polygon⟩,
    ⟨"zone", .way, .polygon⟩, ⟨"Zone", .way, .polygon⟩, ⟨"hit", .node, .point⟩]
  statements := [
    ⟨"Nodes", .materialize,
      filterSql (nodeFilter "Nodes" "nodes" (.hasTag "name")) (.of (.hasTag "name"))⟩,
    ⟨"zone", .materialize,
      filterSql (nodeFilter "zone" "ways_bbox" (.hasTag "landuse")) (.of (.hasTag "landuse"))⟩,
    ⟨"Zone", .materialize,
      filterSql (nodeFilter "Zone" "ways_bbox" (.hasTag "building")) (.of (.hasTag "building"))⟩,
    ⟨"hit", .output,
      outputSql cased.sink
        (.of (.all [.intersects "Nodes", .intersects "zone", .intersects "Zone"]))⟩]
  result := .point

theorem cased_compile : cased.compile = .ok casedPipeline := by
  have planned : cased.plan = .ok casedPipeline.plan := by decide +kernel
  exact compile_eq_ok_iff.2 ⟨planned, rfl, rfl, rfl⟩

end Example

/-- **Names that differ in capitals are accepted and confused.**  In lower case, one of the
created relations has the name of a built-in source, and two have one name. -/
theorem cased_created_names_confused :
    (∀ r ∈ Example.cased.requests, r.Made) ∧
      Example.cased.compile = .ok Example.casedPipeline ∧
      Example.casedPipeline.created = ["Nodes", "zone", "Zone"] ∧
      Sql.fold "Nodes" = Builtin.nodes.name ∧ Sql.fold "zone" = Sql.fold "Zone" ∧
      ¬ Example.casedPipeline.ToldApart .folded := by
  have made : ∀ r ∈ Example.cased.requests, r.Made := by decide
  have created : Example.casedPipeline.created = ["Nodes", "zone", "Zone"] :=
    Pipeline.created_of_faithful (faithful_of_compile made Example.cased_compile)
  refine ⟨made, Example.cased_compile, created, by decide, by decide, fun apart => ?_⟩
  have distinct := apart.distinct
  rw [created] at distinct
  exact absurd distinct (by decide)

end Check

end MapAudit
