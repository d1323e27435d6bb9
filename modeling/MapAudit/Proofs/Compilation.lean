import MapAudit.Pipeline
import MapAudit.Proofs.Dependency
import MapAudit.Proofs.Outcome

/-!
# The statements of a compiled check

Where the statements of a pipeline come from: each belongs to a relation of its
plan, and either creates a built-in source or is the statement of a request.
-/

namespace MapAudit

set_option autoImplicit false

/-- A statement of a request is of its name, in the role its place gives it. -/
theorem Request.statement_eq_ok_iff {r : Request} {isSink : Bool} {s : Statement} :
    r.statement isSink = .ok s ↔
      s.relation = r.name ∧ s.role = (if isSink then .output else .materialize) ∧
        r.sql isSink = .ok s.sql := by
  rw [statement, bind_eq_ok_iff]
  constructor
  · rintro ⟨text, written, made⟩
    cases made
    exact ⟨rfl, rfl, written⟩
  · rintro ⟨named, role, written⟩
    refine ⟨s.sql, written, ?_⟩
    rw [← named, ← role]
    rfl

namespace Check

variable {c : Check}

theorem statementOf_builtin {relation : Relation} {source : Builtin}
    (builtin : Builtin.find? relation.name = some source) :
    c.statementOf relation = .ok (source.setup?.map fun sql => ⟨relation.name, .setup, sql⟩) := by
  rw [statementOf, builtin]

theorem statementOf_request {relation : Relation} {r : Request}
    (found : c.find? relation.name = some r) :
    c.statementOf relation = some <$> r.statement (r.name = c.sink.name) := by
  rw [statementOf, builtin_of_find? found]
  dsimp only
  rw [found]

/-- A relation that is not refused is a built-in source, with a statement where the
store lacks it, or the relation of a request. -/
theorem statementOf_eq_ok {relation : Relation} {s? : Option Statement}
    (written : c.statementOf relation = .ok s?) :
    (∃ source, Builtin.find? relation.name = some source ∧
      s? = source.setup?.map fun sql => ⟨relation.name, .setup, sql⟩) ∨
    ∃ r s, c.find? relation.name = some r ∧ r.statement (r.name = c.sink.name) = .ok s ∧
      s? = some s := by
  cases builtin : Builtin.find? relation.name with
  | some source =>
      rw [statementOf_builtin builtin, Except.ok.injEq] at written
      exact Or.inl ⟨source, rfl, written.symm⟩
  | none =>
      cases found : c.find? relation.name with
      | none =>
          rw [statementOf, builtin] at written
          dsimp only at written
          rw [found] at written
          cases written
      | some r =>
          rw [statementOf_request found] at written
          cases stated : r.statement (r.name = c.sink.name) with
          | error e =>
              rw [stated] at written
              cases written
          | ok s =>
              rw [stated] at written
              cases written
              exact Or.inr ⟨r, s, rfl, stated, rfl⟩

/-- A relation has a statement of its own when it is a built-in source that the
store lacks, or the relation of a request. -/
theorem statementOf_cases {relation : Relation} {s : Statement}
    (written : c.statementOf relation = .ok (some s)) :
    (∃ source sql, Builtin.find? relation.name = some source ∧ source.setup? = some sql ∧
      s = ⟨relation.name, .setup, sql⟩) ∨
    ∃ r, c.find? relation.name = some r ∧ r.statement (r.name = c.sink.name) = .ok s := by
  rcases statementOf_eq_ok written with ⟨source, builtin, same⟩ | ⟨r, own, found, stated, same⟩
  · obtain ⟨sql, setup, rfl⟩ := Option.map_eq_some_iff.1 same.symm
    exact Or.inl ⟨source, sql, builtin, setup, rfl⟩
  · cases same
    exact Or.inr ⟨r, found, stated⟩

/-- A statement of a relation is of its name. -/
theorem relation_of_statementOf {relation : Relation} {s : Statement}
    (written : c.statementOf relation = .ok (some s)) : s.relation = relation.name := by
  rcases statementOf_cases written with ⟨source, sql, -, -, rfl⟩ | ⟨r, found, stated⟩
  · rfl
  · rw [(Request.statement_eq_ok_iff.1 stated).1, find?_name found]

theorem statementsOf_cons_eq_ok_iff {relation : Relation} {rest : Plan}
    {statements : List Statement} :
    c.statementsOf (relation :: rest) = .ok statements ↔ ∃ first others,
      c.statementOf relation = .ok first ∧ c.statementsOf rest = .ok others ∧
        statements = first.toList ++ others := by
  rw [statementsOf, bind_eq_ok_iff]
  constructor
  · rintro ⟨first, here, written⟩
    obtain ⟨others, later, made⟩ := bind_eq_ok_iff.1 written
    cases made
    exact ⟨first, others, here, later, rfl⟩
  · rintro ⟨first, others, here, later, rfl⟩
    exact ⟨first, here, bind_eq_ok_iff.2 ⟨others, later, rfl⟩⟩

/-- The statements of a plan are those of its relations. -/
theorem mem_statementsOf {plan : Plan} {statements : List Statement}
    (written : c.statementsOf plan = .ok statements) {s : Statement} :
    s ∈ statements ↔ ∃ relation ∈ plan, c.statementOf relation = .ok (some s) := by
  induction plan generalizing statements with
  | nil =>
      cases written
      simp
  | cons relation rest ih =>
      obtain ⟨first, others, here, later, rfl⟩ := statementsOf_cons_eq_ok_iff.1 written
      rw [List.mem_append, ih later, List.exists_mem_cons_iff, here, Option.mem_toList,
        Except.ok.injEq]

theorem compile_eq_ok_iff {p : Pipeline} :
    c.compile = .ok p ↔
      c.plan = .ok p.plan ∧ c.statementsOf p.plan = .ok p.statements ∧
        p.issueClass = c.issueClass ∧ p.result = .ofFeature c.sink.feature := by
  rw [compile, bind_eq_ok_iff]
  constructor
  · rintro ⟨plan, planned, rest⟩
    obtain ⟨statements, written, made⟩ := bind_eq_ok_iff.1 rest
    cases made
    exact ⟨planned, written, rfl, rfl⟩
  · rintro ⟨planned, written, issueClass, result⟩
    refine ⟨p.plan, planned, bind_eq_ok_iff.2 ⟨p.statements, written, ?_⟩⟩
    rw [← issueClass, ← result]
    rfl

end Check

end MapAudit
