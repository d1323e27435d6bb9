import MapAudit.Proofs.Compilation
import MapAudit.Proofs.Resolution

/-!
# Checks that are declared differently

What a check compiles to depends on its class, its sink and the requests that the sink
reaches.  Two checks that look up alike every name reached from a relation resolve it
alike, with the same plan or the same refusal (`resolve_congr`), and so it is with the
statements of a plan (`statementsOf_congr`).  Declaring the requests before the sink in
another order, dropping some that nothing reached refers to and adding others of that
kind, changes no look-up of a name that is reached (`Rearranged.find?_eq`).
-/

namespace MapAudit

set_option autoImplicit false

namespace Check

variable {c other : Check}

/-! ## Checks with the same look-ups -/

theorem foldlM_attach_congr {path : List String} {owner : String} {joins : List String}
    (same : ∀ join ∈ joins, other.resolve path join = c.resolve path join) (plan : Plan) :
    joins.foldlM (other.attach path owner) plan = joins.foldlM (c.attach path owner) plan := by
  induction joins generalizing plan with
  | nil => rfl
  | cons join joins ih =>
      have first : other.attach path owner plan join = c.attach path owner plan join := by
        rw [attach, attach, same join List.mem_cons_self]
      have rest := ih fun next member => same next (List.mem_cons_of_mem join member)
      rw [List.foldlM_cons, List.foldlM_cons, first]
      exact bind_congr rest

/-- Checks that look up alike every name that is reached from a name resolve it alike. -/
theorem resolve_congr {path : List String} {name : String}
    (same : ∀ reached, c.Reaches name reached → other.find? reached = c.find? reached) :
    other.resolve path name = c.resolve path name := by
  induction path, name using path_induction (c := c) with
  | _ path name ih =>
      have here := same name (Reaches.refl name)
      cases builtin : Builtin.find? name with
      | some source => rw [resolve_builtin builtin, resolve_builtin builtin]
      | none =>
          cases found : c.find? name with
          | none =>
              rw [found] at here
              rw [resolve_unknown builtin here, resolve_unknown builtin found]
          | some r =>
              rw [found] at here
              by_cases again : name ∈ path
              · rw [resolve_repeated here again, resolve_repeated found again]
              · have each : ∀ needed ∈ r.dependencies,
                    other.resolve (path ++ [name]) needed = c.resolve (path ++ [name]) needed := by
                  intro needed member
                  have needs := (needs_iff found).2 member
                  exact ih r found again needed fun reached reaches =>
                    same reached (Reaches.head needs reaches)
                have joins : ∀ plan, r.joins.foldlM (other.attach (path ++ [name]) r.name) plan =
                    r.joins.foldlM (c.attach (path ++ [name]) r.name) plan :=
                  foldlM_attach_congr fun join member =>
                    each join (Request.mem_dependencies_of_join member)
                rw [resolve_request here again, resolve_request found again,
                  each r.source r.source_mem_dependencies]
                simp only [joins]

theorem statementOf_congr {relation : Relation} (sink : other.sink = c.sink)
    (same : other.find? relation.name = c.find? relation.name) :
    other.statementOf relation = c.statementOf relation := by
  rw [statementOf, statementOf, sink, same]

/-- Checks with the same sink that look up alike the names of a plan have the same
statements for it. -/
theorem statementsOf_congr {plan : Plan} (sink : other.sink = c.sink)
    (same : ∀ name ∈ plan.names, other.find? name = c.find? name) :
    other.statementsOf plan = c.statementsOf plan := by
  induction plan with
  | nil => rfl
  | cons relation rest ih =>
      rw [statementsOf, statementsOf, statementOf_congr sink (same relation.name (by simp)),
        ih fun name member => same name (by simp [member])]

/-- What a check compiles to depends on its class, its sink, and the requests that the
sink reaches. -/
theorem compile_congr (issueClass : other.issueClass = c.issueClass) (sink : other.sink = c.sink)
    (same : ∀ name, c.Reaches c.sink.name name → other.find? name = c.find? name) :
    other.plan = c.plan ∧ other.compile = c.compile := by
  have planned : other.plan = c.plan := by
    rw [plan, plan, sink]
    exact resolve_congr same
  refine ⟨planned, ?_⟩
  rw [compile, compile, planned, issueClass, sink]
  cases resolved : c.plan with
  | error e => rfl
  | ok plan =>
      have statements : other.statementsOf plan = c.statementsOf plan :=
        statementsOf_congr sink fun name member =>
          same name ((mem_names_iff_reaches resolved).1 member)
      dsimp only [bind, Except.bind]
      rw [statements]

/-! ## Rearranged checks -/

/-- No request that the sink reaches refers to the name. -/
def Unused (c : Check) (name : String) : Prop :=
  ∀ user, c.Reaches c.sink.name user → ¬ c.Needs user name

/-- A check with the same class and the same sink, and before it the same requests in any
order, but for requests that are unused: `c` may have some that `other` lacks, and `other`
some that `c` lacks. -/
structure Rearranged (c other : Check) : Prop where
  issueClass : other.issueClass = c.issueClass
  sink : other.sink = c.sink
  earlier : ∃ kept dropped added,
    c.earlier.Perm (kept ++ dropped) ∧ other.earlier.Perm (kept ++ added) ∧
      (∀ r ∈ dropped, c.Unused r.name) ∧ ∀ r ∈ added, other.Unused r.name

/-- A name that is used is looked up among the kept requests and the sink. -/
theorem find?_eq_some_iff_of_used {kept extra : List Request}
    (same : c.earlier.Perm (kept ++ extra)) (unused : ∀ r ∈ extra, c.Unused r.name)
    {name : String} (used : ¬ c.Unused name) {r : Request} :
    c.find? name = some r ↔ (r ∈ kept ∨ r = c.sink) ∧ r.name = name := by
  have absent : r.name = name → r ∉ extra := by
    rintro rfl member
    exact used (unused r member)
  rw [find?_eq_some_iff, requests, List.mem_append, same.mem_iff, List.mem_append,
    List.mem_singleton]
  constructor
  · rintro ⟨(kept | dropped) | sink, named⟩
    · exact ⟨Or.inl kept, named⟩
    · exact absurd dropped (absent named)
    · exact ⟨Or.inr sink, named⟩
  · rintro ⟨kept | sink, named⟩
    · exact ⟨Or.inl (Or.inl kept), named⟩
    · exact ⟨Or.inr sink, named⟩

/-- Rearranging a check keeps what its sink reaches, and the requests there. -/
theorem Rearranged.find?_eq (rearranged : c.Rearranged other) {name : String}
    (reaches : c.Reaches c.sink.name name) :
    other.Reaches other.sink.name name ∧ other.find? name = c.find? name := by
  obtain ⟨kept, dropped, added, before, after, unused, unused'⟩ := rearranged.earlier
  induction reaches with
  | refl =>
      rw [find?_sink, ← rearranged.sink, find?_sink]
      exact ⟨Reaches.refl _, rfl⟩
  | tail reached needs ih =>
      rename_i user name
      obtain ⟨reached', same⟩ := ih
      obtain ⟨r, member, named, depends⟩ := needs
      have found : c.find? user = some r := find?_eq_some_iff.2 ⟨member, named⟩
      have needs' : other.Needs user name := (needs_iff (same.trans found)).2 depends
      -- The name is used in either check, so neither has it among its unused requests.
      have used : ¬ c.Unused name := fun none => none user reached ((needs_iff found).2 depends)
      have used' : ¬ other.Unused name := fun none => none user reached' needs'
      refine ⟨reached'.tail needs', Option.ext fun r => ?_⟩
      rw [find?_eq_some_iff_of_used after unused' used',
        find?_eq_some_iff_of_used before unused used, rearranged.sink]

/-- **Neither the order of declaration nor unused requests matter.**  A check and its
rearrangement have the same plan and compile to the same pipeline, or are refused for the
same reason. -/
theorem compile_of_rearranged (rearranged : c.Rearranged other) :
    other.plan = c.plan ∧ other.compile = c.compile :=
  compile_congr rearranged.issueClass rearranged.sink fun _ reaches =>
    (rearranged.find?_eq reaches).2

/-- Where there is a plan, a name is unused if no request of the plan refers to it. -/
theorem unused_of_plan {plan : Plan} (planned : c.plan = .ok plan) {name : String}
    (free : ∀ r ∈ c.requests, r.name ∈ plan.names → name ∉ r.dependencies) : c.Unused name := by
  rintro user reaches ⟨r, request, rfl, depends⟩
  exact free r request ((mem_names_iff_reaches planned).2 reaches) depends

namespace Example

/-- `zoned` in another order, without the request that reads itself, and with a buffer of
a relation that does not exist. -/
def rezoned : Check where
  issueClass := zoned.issueClass
  earlier := [
    nodeFilter "inside" "nodes" (.intersects "zone"),
    ⟨"grown", .node, .polygon, "nowhere", .buffer "5"⟩,
    nodeFilter "zone" "ways_bbox" (.hasTag "landuse")]
  sink := zoned.sink
  distinct := by decide
  unshadowed := by decide

theorem zoned_rearranged : zoned.Rearranged rezoned where
  issueClass := rfl
  sink := rfl
  earlier := by
    have planned : zoned.plan = .ok zonedPlan := by decide +kernel
    have planned' : rezoned.plan = .ok zonedPlan := by decide +kernel
    refine ⟨[nodeFilter "zone" "ways_bbox" (.hasTag "landuse"),
      nodeFilter "inside" "nodes" (.intersects "zone")], [nodeFilter "loop" "loop" (.hasTag "name")],
      [⟨"grown", .node, .polygon, "nowhere", .buffer "5"⟩], ?_, ?_, ?_, ?_⟩
    · exact List.Perm.cons _ (List.Perm.swap _ _ [])
    · exact (List.reverse_perm _).symm.trans
        (List.Perm.cons _ (List.Perm.swap _ _ []))
    · intro r member
      obtain rfl := List.mem_singleton.1 member
      exact unused_of_plan planned (by decide)
    · intro r member
      obtain rfl := List.mem_singleton.1 member
      exact unused_of_plan planned' (by decide)

end Example

theorem zoned_compile_of_rearranged :
    Example.zoned.Rearranged Example.rezoned ∧
      Example.rezoned.plan = Example.zoned.plan ∧
      Example.rezoned.compile = Example.zoned.compile :=
  ⟨Example.zoned_rearranged, compile_of_rearranged Example.zoned_rearranged⟩

end Check

end MapAudit
