import MapAudit.Proofs.Availability

/-!
# The layout of a pipeline

A plan names only what is known, so a check that has a plan is refused for one reason: its
sink is a buffer (`compile_eq_error_iff`).  Otherwise the statements stand in the order of
the plan, one for each request and one for the polygons of relations, and the place of a
name in the check decides its role (`statementsOf_layout`).  The sink is the last name of
the plan and stands in it once, so the output is the last statement and the only one of its
role, and the teardown is all the others, turned round (`exists_laidOut`).
-/

namespace MapAudit

set_option autoImplicit false

/-- The text of a request is refused for a buffer that is the sink, and for nothing else. -/
theorem Request.sql_eq_error_iff {r : Request} {isSink : Bool} {e : CheckError} :
    r.sql isSink = .error e ↔ isSink = true ∧ r.isBuffer = true ∧ e = .invalidSink r.name := by
  unfold sql isBuffer
  cases r.operation <;> cases isSink <;> simp [eq_comm]

theorem Request.statement_eq_error_iff {r : Request} {isSink : Bool} {e : CheckError} :
    r.statement isSink = .error e ↔
      isSink = true ∧ r.isBuffer = true ∧ e = .invalidSink r.name := by
  rw [statement, bind_eq_error_iff, sql_eq_error_iff]
  constructor
  · rintro (refused | ⟨text, -, made⟩)
    · exact refused
    · cases made
  · exact Or.inl

/-- The polygons of relations are the one built-in source with a statement of its own. -/
theorem Builtin.isSome_setup?_iff {source : Builtin} :
    source.setup?.isSome = true ↔ source.name = relationsPolygon.name := by
  cases source <;> decide

namespace Check

variable {c : Check} {p : Pipeline}

/-! ## Why a check with a plan is refused -/

/-- A relation whose name is known is refused for a sink that is a buffer. -/
theorem statementOf_eq_error_iff {relation : Relation} (known : c.Known relation.name)
    {e : CheckError} :
    c.statementOf relation = .error e ↔
      relation.name = c.sink.name ∧ c.sink.isBuffer = true ∧ e = .invalidSink c.sink.name := by
  rcases known with ⟨source, named⟩ | ⟨r, request, named⟩
  · have builtin : Builtin.find? relation.name = some source := by
      rw [← named, Builtin.find?_name]
    have other : relation.name ≠ c.sink.name := fun same =>
      name_ne_builtin c.sink_mem_requests source (named.trans same).symm
    rw [statementOf_builtin builtin]
    simp [other]
  · have found : c.find? relation.name = some r := find?_eq_some_iff.2 ⟨request, named⟩
    rw [statementOf_request found, map_eq_error_iff, Request.statement_eq_error_iff,
      decide_eq_true_eq, named]
    refine and_congr_right fun sink => ?_
    obtain rfl : r = c.sink :=
      Option.some.inj ((found.symm.trans (congrArg c.find? sink)).trans c.find?_sink)
    rw [sink]

/-- Statements are refused where one of their relations is. -/
theorem statementsOf_eq_error {plan : Plan} {e : CheckError}
    (refused : c.statementsOf plan = .error e) :
    ∃ relation ∈ plan, c.statementOf relation = .error e := by
  induction plan with
  | nil => cases refused
  | cons relation rest ih =>
      rw [statementsOf, bind_eq_error_iff] at refused
      rcases refused with here | ⟨first, -, others⟩
      · exact ⟨relation, List.mem_cons_self, here⟩
      · rcases bind_eq_error_iff.1 others with later | ⟨statements, -, made⟩
        · obtain ⟨other, member, refusal⟩ := ih later
          exact ⟨other, List.mem_cons_of_mem relation member, refusal⟩
        · cases made

/-- Every relation of a plan is known, so that looking it up never fails. -/
theorem known_of_planned {plan : Plan} (planned : c.plan = .ok plan) {relation : Relation}
    (member : relation ∈ plan) : c.Known relation.name :=
  (sound_of_resolve planned).known _ (Plan.mem_names_of_mem member)

/-- The statements of a plan are refused exactly for a sink that is a buffer: the sink is in
the plan, and nothing else in it is refused. -/
theorem statementsOf_eq_error_iff {plan : Plan} (planned : c.plan = .ok plan) {e : CheckError} :
    c.statementsOf plan = .error e ↔ c.sink.isBuffer = true ∧ e = .invalidSink c.sink.name := by
  constructor
  · intro refused
    obtain ⟨relation, member, refusal⟩ := statementsOf_eq_error refused
    exact ((statementOf_eq_error_iff (known_of_planned planned member)).1 refusal).2
  · rintro ⟨buffer, rfl⟩
    obtain ⟨sink, last, named⟩ := exists_last_of_resolve planned
    have member : sink ∈ plan := List.mem_of_getLast? last
    have refusal : c.statementOf sink = .error (.invalidSink c.sink.name) :=
      (statementOf_eq_error_iff (known_of_planned planned member)).2 ⟨named, buffer, rfl⟩
    cases written : c.statementsOf plan with
    | ok statements =>
        obtain ⟨s?, fine⟩ := exists_statementOf written member
        rw [refusal] at fine
        cases fine
    | error other =>
        obtain ⟨relation, inPlan, refusal⟩ := statementsOf_eq_error written
        rw [((statementOf_eq_error_iff (known_of_planned planned inPlan)).1 refusal).2.2]

/-- **A check is refused as its plan is, or for a sink that is a buffer**, in this order. -/
theorem compile_eq_error_iff {e : CheckError} :
    c.compile = .error e ↔
      c.plan = .error e ∨
        (∃ plan, c.plan = .ok plan) ∧ c.sink.isBuffer = true ∧ e = .invalidSink c.sink.name := by
  rw [compile, bind_eq_error_iff]
  refine or_congr_right ⟨?_, ?_⟩
  · rintro ⟨plan, planned, refused⟩
    rcases bind_eq_error_iff.1 refused with written | ⟨statements, -, made⟩
    · exact ⟨⟨plan, planned⟩, (statementsOf_eq_error_iff planned).1 written⟩
    · cases made
  · rintro ⟨⟨plan, planned⟩, buffer⟩
    exact ⟨plan, planned,
      bind_eq_error_iff.2 (Or.inl ((statementsOf_eq_error_iff planned).2 buffer))⟩

/-! ## Which statements there are -/

/-- Whether a name has a statement: the name of a request, or that of the polygons of
relations. -/
def hasStatement (c : Check) (name : String) : Bool :=
  name = Builtin.relationsPolygon.name || c.requests.any fun r => r.name = name

def roleOf (c : Check) (name : String) : Role :=
  if name = c.sink.name then .output
  else if name = Builtin.relationsPolygon.name then .setup
  else .materialize

theorem hasStatement_of_request {r : Request} (request : r ∈ c.requests) :
    c.hasStatement r.name = true := by
  simp only [hasStatement, Bool.or_eq_true, List.any_eq_true, decide_eq_true_eq]
  exact Or.inr ⟨r, request, rfl⟩

theorem hasStatement_builtin (source : Builtin) :
    c.hasStatement source.name = source.setup?.isSome := by
  have free : (c.requests.any fun r => r.name = source.name) = false := by
    simp only [List.any_eq_false, decide_eq_true_eq]
    exact fun r request => name_ne_builtin request source
  rw [Bool.eq_iff_iff, Builtin.isSome_setup?_iff, hasStatement, free, Bool.or_false,
    decide_eq_true_eq]

theorem roleOf_builtin {source : Builtin} (lacking : source.setup?.isSome = true) :
    c.roleOf source.name = .setup := by
  have other : source.name ≠ c.sink.name := (name_ne_builtin c.sink_mem_requests source).symm
  rw [roleOf, if_neg other, if_pos (Builtin.isSome_setup?_iff.1 lacking)]

theorem roleOf_request {r : Request} (request : r ∈ c.requests) :
    c.roleOf r.name = if r.name = c.sink.name then .output else .materialize := by
  rw [roleOf, if_neg (name_ne_builtin request .relationsPolygon)]

/-- One relation has the statement of its name, in the role of its name, or none. -/
theorem statementOf_layout {relation : Relation} {s? : Option Statement}
    (written : c.statementOf relation = .ok s?) :
    s?.toList.map (fun s => (s.relation, s.role)) =
      ([relation.name].filter c.hasStatement).map fun name => (name, c.roleOf name) := by
  rcases statementOf_eq_ok written with ⟨source, builtin, rfl⟩ | ⟨r, s, found, stated, rfl⟩
  · rw [← Builtin.name_of_find? builtin]
    cases setup : source.setup? with
    | none => simp [hasStatement_builtin, setup]
    | some sql =>
        have lacking : source.setup?.isSome = true := by rw [setup]; rfl
        simp [hasStatement_builtin, roleOf_builtin lacking, setup]
  · obtain ⟨named, role, -⟩ := Request.statement_eq_ok_iff.1 stated
    have request : r ∈ c.requests := find?_mem found
    rw [← find?_name found]
    simp [hasStatement_of_request request, roleOf_request request, named, role]

/-- **Statements stand in the order of the plan**, one for each name that has one, in the
role of its name. -/
theorem statementsOf_layout {plan : Plan} {statements : List Statement}
    (written : c.statementsOf plan = .ok statements) :
    statements.map (fun s => (s.relation, s.role)) =
      (plan.names.filter c.hasStatement).map fun name => (name, c.roleOf name) := by
  induction plan generalizing statements with
  | nil =>
      cases written
      rfl
  | cons relation rest ih =>
      obtain ⟨first, others, here, later, rfl⟩ := statementsOf_cons_eq_ok_iff.1 written
      rw [List.map_append, statementOf_layout here, ih later, ← List.map_append,
        ← List.filter_append]
      rfl

/-! ## The output and the teardown -/

/-- The sink is the last name of a plan, and stands in it once. -/
theorem exists_names_eq_concat {plan : Plan} (planned : c.plan = .ok plan) :
    ∃ front, plan.names = front ++ [c.sink.name] ∧ c.sink.name ∉ front := by
  have last : plan.names.getLast? = some c.sink.name := getLast?_names_of_resolve planned
  have distinct : plan.names.Nodup := (sound_of_resolve planned).distinct
  obtain ⟨front, split⟩ := List.getLast?_eq_some_iff.1 last
  refine ⟨front, split, fun member => ?_⟩
  rw [split, List.nodup_append] at distinct
  exact distinct.2.2 _ member _ List.mem_cons_self rfl

/-- The statements of a pipeline: `before` creates relations, and `output` reports the
features of the sink. -/
structure LaidOut (c : Check) (p : Pipeline) (before : List Statement) (output : Statement) :
    Prop where
  split : p.statements = before ++ [output]
  reports : output.role = .output
  sink : output.relation = c.sink.name
  creates : ∀ s ∈ before,
    s.role = if s.relation = Builtin.relationsPolygon.name then .setup else .materialize

/-- **Every compiled pipeline is laid out**: its output comes last, and nothing else reports. -/
theorem exists_laidOut (compiled : c.compile = .ok p) :
    ∃ before output, c.LaidOut p before output := by
  obtain ⟨planned, written, -, -⟩ := compile_eq_ok_iff.1 compiled
  obtain ⟨front, names, inner⟩ := exists_names_eq_concat planned
  have layout := statementsOf_layout written
  have last : [c.sink.name].filter c.hasStatement = [c.sink.name] := by
    simp [hasStatement_of_request c.sink_mem_requests]
  rw [names, List.filter_append, last, List.map_append, List.map_eq_append_iff] at layout
  obtain ⟨before, rest, split, earlier, ends⟩ := layout
  obtain ⟨output, rfl, same⟩ := List.map_eq_singleton_iff.1 ends
  obtain ⟨named, role⟩ := Prod.mk.inj same
  refine ⟨before, output, split, ?_, named, fun s member => ?_⟩
  · rw [role, roleOf, if_pos rfl]
  · have listed : (s.relation, s.role) ∈ (front.filter c.hasStatement).map fun name =>
        (name, c.roleOf name) := earlier ▸ List.mem_map_of_mem member
    obtain ⟨name, kept, same⟩ := List.mem_map.1 listed
    obtain ⟨rfl, role⟩ := Prod.mk.inj same
    have other : s.relation ≠ c.sink.name := fun same =>
      inner (same ▸ List.mem_of_mem_filter kept)
    rw [← role, roleOf, if_neg other]

theorem LaidOut.output?_eq {before : List Statement} {output : Statement}
    (laidOut : c.LaidOut p before output) : p.output? = some output := by
  simp [Pipeline.output?, laidOut.split, laidOut.reports]

/-- The teardown drops what stands before the output, the last of it first. -/
theorem LaidOut.teardown_eq {before : List Statement} {output : Statement}
    (laidOut : c.LaidOut p before output) :
    p.teardown = before.reverse.map Statement.drop := by
  have idle : output.role.creates = false := by rw [laidOut.reports]; rfl
  have all : ∀ s ∈ before.reverse, s.role.creates = true := by
    intro s member
    rw [laidOut.creates s (List.mem_reverse.1 member)]
    split <;> rfl
  rw [Pipeline.teardown, laidOut.split, List.reverse_append, List.reverse_singleton,
    List.singleton_append, List.filter_cons_of_neg (by simp [idle]), List.filter_eq_self.2 all]

/-- **When a check compiles, and to what.**  A check is refused exactly when its plan is,
with the same refusal, or when it has a plan and its sink is a buffer; no relation of a plan
is refused as unknown.  A compiled check has one statement for each request of its plan and
for the polygons of relations if these are in it, in the order of the plan.  The last
statement, and no other, is the output and belongs to the sink; the polygons of relations
are set up, and all else is materialized.  The teardown drops what was set up or
materialized, each relation once and the last first. -/
theorem compile_layout (c : Check) :
    (∀ e, c.compile = .error e ↔
      c.plan = .error e ∨
        (∃ plan, c.plan = .ok plan) ∧ c.sink.isBuffer = true ∧ e = .invalidSink c.sink.name) ∧
    (∀ plan, c.plan = .ok plan → ∀ relation ∈ plan,
      c.statementOf relation ≠ .error (.unknownReference relation.name)) ∧
    ∀ p, c.compile = .ok p →
      c.plan = .ok p.plan ∧
      p.statements.map (·.relation) = p.plan.names.filter c.hasStatement ∧
      ∃ before output,
        p.statements = before ++ [output] ∧
        output.role = .output ∧ output.relation = c.sink.name ∧ p.output? = some output ∧
        (∀ s ∈ before,
          s.role = if s.relation = Builtin.relationsPolygon.name then .setup else .materialize) ∧
        p.teardown = before.reverse.map (fun s =>
          ⟨s.relation, .teardown, "DROP TABLE IF EXISTS " ++ s.relation ++ ";"⟩) ∧
        (p.teardown.map (·.relation)).Nodup := by
  refine ⟨fun e => compile_eq_error_iff, fun plan planned relation member unknown => ?_, ?_⟩
  · obtain ⟨-, -, same⟩ := (statementOf_eq_error_iff (known_of_planned planned member)).1 unknown
    cases same
  · intro p compiled
    obtain ⟨planned, written, -, -⟩ := compile_eq_ok_iff.1 compiled
    obtain ⟨before, output, laidOut⟩ := exists_laidOut compiled
    have relations := congrArg (List.map Prod.fst) (statementsOf_layout written)
    have dropped := laidOut.teardown_eq
    refine ⟨planned, ?_, before, output, laidOut.split, laidOut.reports, laidOut.sink,
      laidOut.output?_eq, laidOut.creates, dropped, ?_⟩
    · simpa [Function.comp_def] using relations
    · have distinct := nodup_relations compiled
      rw [laidOut.split, List.map_append, List.nodup_append] at distinct
      rw [dropped, List.map_map, List.map_reverse, List.nodup_reverse]
      exact distinct.1

end Check

end MapAudit
