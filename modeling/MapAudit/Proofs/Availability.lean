import MapAudit.Proofs.Compilation
import MapAudit.Proofs.Resolution

/-!
# Statements find the relations they read

The statements of a pipeline follow its plan, in which everything stands after
what it is made from.  So whatever a statement reads is stored, or was created by a
statement before it (`available_of_split`), and no two statements are of one
relation (`nodup_relations`).  The polygons of relations are created when some
statement reads them and not otherwise.
-/

namespace MapAudit

set_option autoImplicit false

/-- The built-in sources that the store holds. -/
def Builtin.storedNames : List String := ["nodes", "ways_linestring", "ways_bbox"]

/-- A built-in source has no statement where the store holds it. -/
theorem Builtin.setup?_eq_none_iff {source : Builtin} :
    source.setup? = none ↔ source.name ∈ storedNames := by
  cases source <;> simp [setup?, storedNames, name]

/-- The statement creates the relation of a name. -/
def Statement.Creates (s : Statement) (name : String) : Prop :=
  s.role.creates ∧ s.relation = name

/-- The relation of a name can be read after some statements: it is stored, or one
of them creates it. -/
def Available (statements : List Statement) (name : String) : Prop :=
  name ∈ Builtin.storedNames ∨ ∃ t ∈ statements, t.Creates name

namespace Check

variable {c : Check}

/-! ## Statements and their places in the plan -/

/-- The statements before one are those of the plan before its relation. -/
theorem exists_split_of_statementsOf {plan : Plan} {before after : List Statement} {s : Statement}
    (written : c.statementsOf plan = .ok (before ++ s :: after)) :
    ∃ (front : Plan) (relation : Relation) (back : Plan), plan = front ++ relation :: back ∧
      c.statementsOf front = .ok before ∧ c.statementOf relation = .ok (some s) := by
  induction plan generalizing before with
  | nil =>
      have none : [] = before ++ s :: after := Except.ok.inj written
      simp at none
  | cons relation rest ih =>
      obtain ⟨first, others, here, later, split⟩ := statementsOf_cons_eq_ok_iff.1 written
      cases first with
      | none =>
          rw [Option.toList_none, List.nil_append] at split
          subst split
          obtain ⟨front, own, back, rfl, stated, owned⟩ := ih later
          exact ⟨relation :: front, own, back, rfl,
            statementsOf_cons_eq_ok_iff.2 ⟨none, before, here, stated, rfl⟩, owned⟩
      | some t =>
          cases before with
          | nil =>
              obtain ⟨rfl, -⟩ := List.cons.inj split
              exact ⟨[], relation, rest, rfl, rfl, here⟩
          | cons t' before =>
              obtain ⟨rfl, rfl⟩ := List.cons.inj split
              obtain ⟨front, own, back, rfl, stated, owned⟩ := ih later
              exact ⟨relation :: front, own, back, rfl,
                statementsOf_cons_eq_ok_iff.2 ⟨some t', before, here, stated, rfl⟩, owned⟩

theorem exists_statementOf {plan : Plan} {statements : List Statement}
    (written : c.statementsOf plan = .ok statements) {relation : Relation}
    (member : relation ∈ plan) : ∃ s?, c.statementOf relation = .ok s? := by
  induction plan generalizing statements with
  | nil => cases member
  | cons first rest ih =>
      obtain ⟨s?, others, here, later, -⟩ := statementsOf_cons_eq_ok_iff.1 written
      rcases List.mem_cons.1 member with rfl | listed
      · exact ⟨s?, here⟩
      · exact ih later listed

/-- Statements stand in the order of their relations. -/
theorem sublist_of_statementsOf {plan : Plan} {statements : List Statement}
    (written : c.statementsOf plan = .ok statements) :
    (statements.map (·.relation)).Sublist plan.names := by
  induction plan generalizing statements with
  | nil =>
      cases written
      exact List.Sublist.slnil
  | cons relation rest ih =>
      obtain ⟨first, others, here, later, rfl⟩ := statementsOf_cons_eq_ok_iff.1 written
      cases first with
      | none => exact (ih later).cons relation.name
      | some s =>
          rw [Option.toList_some, List.singleton_append, List.map_cons,
            relation_of_statementOf here]
          exact (ih later).cons_cons relation.name

/-- No two statements of a pipeline are of one relation. -/
theorem nodup_relations {p : Pipeline} (compiled : c.compile = .ok p) :
    (p.statements.map (·.relation)).Nodup := by
  obtain ⟨planned, written, -, -⟩ := compile_eq_ok_iff.1 compiled
  have sound : c.Sound [] c.sink.name p.plan := sound_of_resolve planned
  exact sound.distinct.sublist (sublist_of_statementsOf written)

/-! ## What is available -/

/-- The sink is the last of a plan, and so no relation before another. -/
theorem ne_sink_of_front {plan front back : Plan} (planned : c.plan = .ok plan)
    {relation : Relation} (split : plan = front ++ relation :: back) {name : String}
    (member : name ∈ front.names) : name ≠ c.sink.name := by
  rintro rfl
  have sound : c.Sound [] c.sink.name plan := sound_of_resolve planned
  have distinct := sound.distinct
  have last : plan.names.getLast? = some c.sink.name := getLast?_names_of_resolve planned
  rw [split, Plan.names_append, Plan.names_cons] at distinct last
  have later : c.sink.name ∈ relation.name :: back.names := by
    apply List.mem_of_getLast?
    rw [List.getLast?_append, List.getLast?_cons, Option.some_or] at last
    rw [List.getLast?_cons, last]
  exact (List.nodup_append.1 distinct).2.2 _ member _ later rfl

/-- A relation of a plan that is not the sink is available after the statements of
the plan. -/
theorem available_of_mem {plan : Plan} {statements : List Statement}
    (written : c.statementsOf plan = .ok statements) {name : String} (member : name ∈ plan.names)
    (inner : name ≠ c.sink.name) : Available statements name := by
  obtain ⟨relation, inPlan, rfl⟩ := List.mem_map.1 member
  obtain ⟨s?, here⟩ := exists_statementOf written inPlan
  have listed : ∀ s, s? = some s → s ∈ statements := fun s same =>
    (mem_statementsOf written).2 ⟨relation, inPlan, same ▸ here⟩
  rcases statementOf_eq_ok here with ⟨source, builtin, same⟩ | ⟨r, s, found, stated, same⟩
  · cases setup : source.setup? with
    | none =>
        rw [← Builtin.name_of_find? builtin]
        exact Or.inl (Builtin.setup?_eq_none_iff.1 setup)
    | some sql =>
        rw [setup] at same
        exact Or.inr ⟨⟨relation.name, .setup, sql⟩, listed _ same, rfl, rfl⟩
  · obtain ⟨named, role, -⟩ := Request.statement_eq_ok_iff.1 stated
    rw [find?_name found] at named role
    have creates : s.role.creates := by
      rw [role]
      simp [inner, Role.creates]
    exact Or.inr ⟨s, listed s same, creates, named⟩

/-- **What a statement reads is available after the statements before it.** -/
theorem available_of_split {p : Pipeline} (compiled : c.compile = .ok p)
    {before after : List Statement} {s : Statement} (split : p.statements = before ++ s :: after)
    {r : Request} (request : r ∈ c.requests) (own : r.name = s.relation) {other : String}
    (depends : other ∈ r.dependencies) : Available before other := by
  obtain ⟨planned, written, -, -⟩ := compile_eq_ok_iff.1 compiled
  have sound : c.Sound [] c.sink.name p.plan := sound_of_resolve planned
  rw [split] at written
  obtain ⟨front, relation, back, whole, earlier, stated⟩ := exists_split_of_statementsOf written
  have named : relation.name = r.name := by rw [own, relation_of_statementOf stated]
  have names : p.plan.names = front.names ++ r.name :: back.names := by
    rw [whole, Plan.names_append, Plan.names_cons, named]
  have needed : other ∈ front.names :=
    sound.arranged _ _ _ names other ⟨r, request, rfl, depends⟩
  exact available_of_mem earlier needed (ne_sink_of_front planned whole needed)

/-- A statement of a pipeline creates the polygons of relations, or is the statement
of a request. -/
theorem statement_cases {p : Pipeline} (compiled : c.compile = .ok p) {s : Statement}
    (member : s ∈ p.statements) :
    (s = ⟨Builtin.relationsPolygon.name, .setup, Builtin.relationsPolygonSql⟩) ∨
      ∃ r ∈ c.requests, r.name = s.relation ∧ r.statement (r.name = c.sink.name) = .ok s := by
  obtain ⟨-, written, -, -⟩ := compile_eq_ok_iff.1 compiled
  obtain ⟨relation, -, stated⟩ := (mem_statementsOf written).1 member
  rcases statementOf_cases stated with ⟨source, sql, builtin, setup, rfl⟩ | ⟨r, found, stated⟩
  · have name := Builtin.name_of_find? builtin
    cases source with
    | relationsPolygon =>
        obtain rfl := Option.some.inj setup
        rw [← name]
        exact Or.inl rfl
    | nodes => cases setup
    | waysLinestring => cases setup
    | waysBbox => cases setup
  · exact Or.inr ⟨r, find?_mem found, (Request.statement_eq_ok_iff.1 stated).1.symm, stated⟩

/-- A request has a statement when the plan holds it. -/
theorem exists_statement_of_planned {p : Pipeline} (compiled : c.compile = .ok p) {r : Request}
    (request : r ∈ c.requests) (planned : r.name ∈ p.plan.names) :
    ∃ s ∈ p.statements, s.relation = r.name := by
  obtain ⟨-, written, -, -⟩ := compile_eq_ok_iff.1 compiled
  obtain ⟨relation, inPlan, named⟩ := List.mem_map.1 planned
  obtain ⟨s?, here⟩ := exists_statementOf written inPlan
  rcases statementOf_eq_ok here with ⟨source, builtin, -⟩ | ⟨own, s, -, -, rfl⟩
  · have shadows : r.name = source.name := by rw [← named, Builtin.name_of_find? builtin]
    exact absurd shadows (name_ne_builtin request source)
  · exact ⟨s, (mem_statementsOf written).2 ⟨relation, inPlan, here⟩,
      (relation_of_statementOf here).trans named⟩

/-! ## The polygons of relations -/

/-- What a plan holds besides the sink is read by a request that the plan holds. -/
theorem exists_reader {plan : Plan} (planned : c.plan = .ok plan) {name : String}
    (member : name ∈ plan.names) (inner : name ≠ c.sink.name) :
    ∃ r ∈ c.requests, r.name ∈ plan.names ∧ name ∈ r.dependencies := by
  have reaches : c.Reaches c.sink.name name := (mem_names_iff_reaches planned).1 member
  rcases Relation.ReflTransGen.cases_tail reaches with
    same | ⟨middle, reached, r, request, rfl, reads⟩
  · exact absurd same inner
  · exact ⟨r, request, (mem_names_iff_reaches planned).2 reached, reads⟩

theorem countP_eq_one_iff {statements : List Statement}
    (distinct : (statements.map (·.relation)).Nodup) (role : Role) (name : String) :
    statements.countP (fun s => s.role = role ∧ s.relation = name) = 1 ↔
      ∃ s ∈ statements, s.role = role ∧ s.relation = name := by
  have atMost : statements.countP (fun s => s.role = role ∧ s.relation = name) ≤ 1 := calc
    _ ≤ statements.countP (fun s => s.relation = name) := by
      apply List.countP_mono_left
      intro s _ both
      simpa using (of_decide_eq_true both).2
    _ = (statements.map (·.relation)).count name := by
      rw [List.count, List.countP_map]
      congr 1
    _ ≤ 1 := List.nodup_iff_count_le_one.1 distinct name
  have some : 0 < statements.countP (fun s => s.role = role ∧ s.relation = name) ↔
      ∃ s ∈ statements, s.role = role ∧ s.relation = name := by
    simp [List.countP_pos_iff]
  rw [← some]
  omega

theorem setup_iff_read {p : Pipeline} (compiled : c.compile = .ok p) :
    (∃ s ∈ p.statements, s.role = .setup ∧ s.relation = Builtin.relationsPolygon.name) ↔
      ∃ s ∈ p.statements, ∃ r ∈ c.requests,
        r.name = s.relation ∧ Builtin.relationsPolygon.name ∈ r.dependencies := by
  obtain ⟨planned, written, -, -⟩ := compile_eq_ok_iff.1 compiled
  constructor
  · rintro ⟨s, member, -, named⟩
    have inPlan : Builtin.relationsPolygon.name ∈ p.plan.names :=
      named ▸ (sublist_of_statementsOf written).subset (List.mem_map_of_mem member)
    have inner : Builtin.relationsPolygon.name ≠ c.sink.name :=
      (name_ne_builtin c.sink_mem_requests _).symm
    obtain ⟨r, request, listed, reads⟩ := exists_reader planned inPlan inner
    obtain ⟨t, stated, own⟩ := exists_statement_of_planned compiled request listed
    exact ⟨t, stated, r, request, own.symm, reads⟩
  · rintro ⟨s, member, r, request, own, reads⟩
    obtain ⟨before, after, split⟩ := List.append_of_mem member
    rcases available_of_split compiled split request own reads with stored | ⟨t, earlier, creates⟩
    · exact absurd stored (by decide)
    · have listed : t ∈ p.statements := by
        rw [split]
        exact List.mem_append_left _ earlier
      -- A request cannot have the name, so what creates it is the built-in statement.
      rcases statement_cases compiled listed with rfl | ⟨other, declared, named, -⟩
      · exact ⟨_, listed, rfl, rfl⟩
      · exact absurd (named.trans creates.2) (name_ne_builtin declared _)

theorem exists_earlier_of_available {statements : List Statement} {i : Nat} {name : String}
    (available : Available (statements.take i) name) :
    name ∈ Builtin.storedNames ∨
      ∃ j < i, ∃ t, statements[j]? = some t ∧ t.Creates name := by
  rcases available with stored | ⟨t, taken, creates⟩
  · exact Or.inl stored
  · obtain ⟨j, place⟩ := List.mem_iff_getElem?.1 taken
    rw [List.getElem?_take] at place
    split at place
    · exact Or.inr ⟨j, ‹j < i›, t, place, creates⟩
    · cases place

/-- **The statements of a pipeline can be executed in order.**  Whatever a request
reads or is joined with is stored, or is created at an earlier place than the
statement of the request.  The polygons of relations are set up once when some
statement reads them, and not at all otherwise.  No relation is created twice. -/
theorem statements_find_their_relations {p : Pipeline} (compiled : c.compile = .ok p) :
    (∀ (i : Nat) (s : Statement), p.statements[i]? = some s →
      (s.role = .setup ∧ s.relation = Builtin.relationsPolygon.name) ∨
        ∃ r ∈ c.requests, r.name = s.relation ∧ ∀ other ∈ r.dependencies,
          other ∈ Builtin.storedNames ∨
            ∃ j < i, ∃ t, p.statements[j]? = some t ∧ t.Creates other) ∧
      (p.statements.countP
          (fun s => s.role = .setup ∧ s.relation = Builtin.relationsPolygon.name) = 1 ↔
        ∃ s ∈ p.statements, ∃ r ∈ c.requests,
          r.name = s.relation ∧ Builtin.relationsPolygon.name ∈ r.dependencies) ∧
      ((p.statements.filter (·.role.creates)).map (·.relation)).Nodup := by
  have distinct := nodup_relations compiled
  refine ⟨fun i s place => ?_, ?_, ?_⟩
  · rcases statement_cases compiled (List.mem_of_getElem? place) with rfl | ⟨r, request, own, -⟩
    · exact Or.inl ⟨rfl, rfl⟩
    · refine Or.inr ⟨r, request, own, fun other depends => ?_⟩
      obtain ⟨bound, here⟩ := List.getElem?_eq_some_iff.1 place
      have split : p.statements = p.statements.take i ++ s :: p.statements.drop (i + 1) := by
        rw [← here, ← List.drop_eq_getElem_cons bound, List.take_append_drop]
      exact exists_earlier_of_available (available_of_split compiled split request own depends)
  · rw [countP_eq_one_iff distinct, setup_iff_read compiled]
  · exact distinct.sublist (List.filter_sublist.map _)

namespace Example

/-- Only a join leads to the polygons of relations. -/
def bordered : Check where
  issueClass := ⟨"11", "9002", "1", "Named node in a border"⟩
  earlier := [nodeFilter "inside" "nodes" (.intersects "relations_polygon")]
  sink := nodeFilter "named" "inside" (.hasTag "name")
  distinct := by decide
  unshadowed := by decide

def borderedPipeline : Pipeline where
  issueClass := bordered.issueClass
  plan := [
    ⟨"nodes", .node, .point⟩, ⟨"relations_polygon", .relation, .polygon⟩,
    ⟨"inside", .node, .point⟩, ⟨"named", .node, .point⟩]
  statements := [
    ⟨"relations_polygon", .setup, Builtin.relationsPolygonSql⟩,
    ⟨"inside", .materialize,
      filterSql (nodeFilter "inside" "nodes" (.intersects "relations_polygon"))
        (.of (.intersects "relations_polygon"))⟩,
    ⟨"named", .output, outputSql bordered.sink (.of (.hasTag "name"))⟩]
  result := .point

theorem bordered_compile : bordered.compile = .ok borderedPipeline := by
  have planned : bordered.plan = .ok borderedPipeline.plan := by decide +kernel
  exact compile_eq_ok_iff.2 ⟨planned, rfl, rfl, rfl⟩

end Example

theorem bordered_statements_find_their_relations :
    Example.bordered.compile = .ok Example.borderedPipeline ∧
      (∀ (i : Nat) (s : Statement), Example.borderedPipeline.statements[i]? = some s →
        (s.role = .setup ∧ s.relation = Builtin.relationsPolygon.name) ∨
          ∃ r ∈ Example.bordered.requests, r.name = s.relation ∧ ∀ other ∈ r.dependencies,
            other ∈ Builtin.storedNames ∨
              ∃ j < i, ∃ t, Example.borderedPipeline.statements[j]? = some t ∧ t.Creates other) ∧
      (Example.borderedPipeline.statements.countP
          (fun s => s.role = .setup ∧ s.relation = Builtin.relationsPolygon.name) = 1 ↔
        ∃ s ∈ Example.borderedPipeline.statements, ∃ r ∈ Example.bordered.requests,
          r.name = s.relation ∧ Builtin.relationsPolygon.name ∈ r.dependencies) ∧
      ((Example.borderedPipeline.statements.filter (·.role.creates)).map (·.relation)).Nodup :=
  ⟨Example.bordered_compile, statements_find_their_relations Example.bordered_compile⟩

end Check

end MapAudit
