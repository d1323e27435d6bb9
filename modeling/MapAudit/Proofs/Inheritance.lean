import MapAudit.Proofs.Availability
import MapAudit.Proofs.Construction
import MapAudit.Proofs.Decoding
import MapAudit.Proofs.Succession
import MapAudit.Proofs.Traversal

/-!
# Kinds that relations inherit

A request has the kinds of what it reads, except that a buffer has polygons.  Reading on
from source to source leads from a request through a chain of requests to one built-in
source (`Check.SourceChain`), and the kinds of a planned relation are a function of that
chain (`Relation.inherited`): the declared kinds, the joins and the order in which the
relations are met have no part in it (`kinds_follow_source_chain`).

The kind of the rows that a pipeline reports is taken from the declaration of the sink, not
from the plan.  The two agree exactly when the sink declares the kind of the features at the
root of its chain (`result_is_of_declared_kind`).
-/

namespace MapAudit

set_option autoImplicit false

/-- The relation `name` as a chain of requests makes it from a built-in source: its features
are those of the source, and its geometries too unless a buffer is in the chain. -/
def Relation.inherited (name : String) (chain : List Request) (root : Builtin) : Relation :=
  ⟨name, root.feature, if chain.any (·.isBuffer) then .polygon else root.geometry⟩

theorem Request.relation_inherited (r : Request) (chain : List Request) (root : Builtin) :
    r.relation (.inherited r.source chain root) = .inherited r.name (r :: chain) root := by
  cases buffers : r.isBuffer <;> simp [relation, Relation.inherited, buffers]

/-- The requests do the same step: one name, one source, and both are buffers or neither is.
Their declared kinds, predicates, joins and distances may differ. -/
structure Request.StepsAlike (r other : Request) : Prop where
  name : other.name = r.name
  source : other.source = r.source
  isBuffer : other.isBuffer = r.isBuffer

namespace Check

variable {c : Check} {name : String} {chain : List Request} {root : Builtin}

/-! ## Chains of sources -/

/-- Reading from source to source leads from a name through the requests of the chain to a
built-in source. -/
inductive SourceChain (c : Check) : String → List Request → Builtin → Prop where
  | root (source : Builtin) : SourceChain c source.name [] source
  | reads {r : Request} {chain : List Request} {root : Builtin} (request : r ∈ c.requests)
      (onward : SourceChain c r.source chain root) : SourceChain c r.name (r :: chain) root

theorem sourceChain_of_builtin {source : Builtin} (builtin : Builtin.find? name = some source) :
    c.SourceChain name chain root ↔ chain = [] ∧ root = source := by
  constructor
  · rintro (_ | ⟨request, -⟩)
    · rw [Builtin.find?_name] at builtin
      exact ⟨rfl, Option.some.inj builtin⟩
    · exact absurd (Builtin.name_of_find? builtin).symm (name_ne_builtin request source)
  · rintro ⟨rfl, rfl⟩
    rw [← Builtin.name_of_find? builtin]
    exact .root root

theorem sourceChain_of_find? {r : Request} (found : c.find? name = some r) :
    c.SourceChain name chain root ↔
      ∃ rest, chain = r :: rest ∧ c.SourceChain r.source rest root := by
  constructor
  · rintro (_ | ⟨request, onward⟩)
    · have free := builtin_of_find? found
      rw [Builtin.find?_name] at free
      cases free
    · cases (find?_eq_some_iff.2 ⟨request, rfl⟩).symm.trans found
      exact ⟨_, rfl, onward⟩
  · rintro ⟨rest, rfl, onward⟩
    rw [← find?_name found]
    exact .reads (find?_mem found) onward

/-- There is one way to read on. -/
theorem SourceChain.unique (first : c.SourceChain name chain root) {chain' : List Request}
    {root' : Builtin} (second : c.SourceChain name chain' root') :
    chain' = chain ∧ root' = root := by
  induction first generalizing chain' with
  | root source => exact (sourceChain_of_builtin (Builtin.find?_name source)).1 second
  | @reads r chain root request onward ih =>
      have found : c.find? r.name = some r := find?_eq_some_iff.2 ⟨request, rfl⟩
      obtain ⟨rest, rfl, others⟩ := (sourceChain_of_find? found).1 second
      obtain ⟨rfl, rfl⟩ := ih others
      exact ⟨rfl, rfl⟩

/-- A check that has requests which do the same steps has a chain that makes the same
relation. -/
theorem SourceChain.transfer {other : Check} (reads : c.SourceChain name chain root)
    (alike : ∀ r ∈ chain, ∃ s ∈ other.requests, r.StepsAlike s) :
    ∃ chain', other.SourceChain name chain' root ∧
      Relation.inherited name chain' root = .inherited name chain root := by
  induction reads with
  | root source => exact ⟨[], .root source, rfl⟩
  | @reads r chain root request onward ih =>
      obtain ⟨s, declared, same⟩ := alike r List.mem_cons_self
      obtain ⟨chain', others, made⟩ := ih fun t member => alike t (List.mem_cons_of_mem r member)
      rw [← same.source] at others made
      refine ⟨s :: chain', same.name ▸ .reads declared others, ?_⟩
      rw [← same.name, ← s.relation_inherited, made, same.source, same.name, ← r.relation_inherited]
      simp only [Request.relation, same.name, same.isBuffer]

/-! ## The kinds of a plan -/

/-- **The relation that a plan ends in** has the kinds that its chain of sources gives it. -/
theorem inherited_of_resolve {path : List String} {plan : Plan} {e : Relation}
    (resolved : c.resolve path name = .ok plan) (last : plan.getLast? = some e) :
    ∃ chain root, c.SourceChain name chain root ∧ e = .inherited name chain root := by
  -- Along the path; of the plans that are merged, only that of the source gives its kinds.
  induction path, name using path_induction (c := c) generalizing plan e with
  | step path name ih =>
      rcases resolve_cases resolved with ⟨source, builtin, rfl⟩ | ⟨r, found, fresh⟩
      · obtain rfl : source.relation = e := by simpa using last
        have reads := (sourceChain_of_builtin (c := c) builtin).2 ⟨rfl, rfl⟩
        refine ⟨[], source, reads, ?_⟩
        rw [← Builtin.name_of_find? builtin]
        rfl
      · obtain ⟨below, source, joined, first, ends, -, rfl⟩ :=
          (resolve_eq_ok_iff found fresh).1 resolved
        obtain rfl : r.relation source = e := by simpa using last
        obtain ⟨chain, root, reads, rfl⟩ := ih r found fresh r.source first ends
        refine ⟨r :: chain, root, (sourceChain_of_find? found).2 ⟨chain, rfl, reads⟩, ?_⟩
        rw [Request.relation_inherited, find?_name found]

/-- So has every relation of a plan, which is the one that its own plan ends in. -/
theorem inherited_of_planned {plan : Plan} (planned : c.plan = .ok plan) {e : Relation}
    (member : e ∈ plan) :
    ∃ chain root, c.SourceChain e.name chain root ∧ e = .inherited e.name chain root := by
  obtain ⟨own, resolved, last, -⟩ := settled_of_resolve planned e member
  exact inherited_of_resolve resolved last

/-- **The kinds of a request follow from its chain of sources alone.**  There is one chain;
the features are those of the built-in source at its root, and so are the geometries unless
the request or one that it reads is a buffer.  Wherever another check has requests that do
the steps of the chain, its plan gives the relation the same kinds, whatever these declare
and are joined with, and whatever else it plans. -/
theorem kinds_follow_source_chain {plan : Plan} (planned : c.plan = .ok plan) {r : Request}
    (request : r ∈ c.requests) {e : Relation} (member : e ∈ plan) (named : e.name = r.name) :
    ∃ chain root, c.SourceChain r.name (r :: chain) root ∧
      (∀ chain' root', c.SourceChain r.name chain' root' → chain' = r :: chain ∧ root' = root) ∧
      e.feature = root.feature ∧
      e.geometry = (if (r :: chain).any (·.isBuffer) then .polygon else root.geometry) ∧
      ∀ (other : Check) (plan' : Plan), other.plan = .ok plan' →
        (∀ s ∈ r :: chain, ∃ t ∈ other.requests, s.StepsAlike t) →
          ∀ e' ∈ plan', e'.name = r.name → e' = e := by
  have found : c.find? r.name = some r := find?_eq_some_iff.2 ⟨request, rfl⟩
  obtain ⟨whole, root, reads, made⟩ := inherited_of_planned planned member
  rw [named] at reads made
  obtain ⟨chain, rfl, -⟩ := (sourceChain_of_find? found).1 reads
  refine ⟨chain, root, reads, fun chain' root' => reads.unique, ?_, ?_, ?_⟩
  · rw [made]
    rfl
  · rw [made]
    rfl
  · intro other plan' planned' alike e' member' named'
    obtain ⟨others, root', reads', made'⟩ := inherited_of_planned planned' member'
    rw [named'] at reads' made'
    obtain ⟨moved, carried, same⟩ := reads.transfer alike
    obtain ⟨rfl, rfl⟩ := carried.unique reads'
    rw [made', same, made]

namespace Example

/-- Ways that are declared as other things, and grown on the way to the sink. -/
def layered : Check where
  issueClass := ⟨"42", "9005", "1", "Named surroundings of a border"⟩
  earlier := [
    ⟨"grown", .node, .point, "ways_linestring", .buffer "5"⟩,
    ⟨"bordering", .relation, .linestring, "grown", .filter (.of (.intersects "relations_polygon"))⟩]
  sink := nodeFilter "named" "bordering" (.hasTag "name")
  distinct := by decide
  unshadowed := by decide

def layeredPlan : Plan := [
  ⟨"ways_linestring", .way, .linestring⟩, ⟨"grown", .way, .polygon⟩,
  ⟨"relations_polygon", .relation, .polygon⟩, ⟨"bordering", .way, .polygon⟩,
  ⟨"named", .way, .polygon⟩]

end Example

theorem layered_kinds_follow_source_chain :
    Example.layered.plan = .ok Example.layeredPlan ∧
      Example.layered.sink ∈ Example.layered.requests ∧
      ⟨"named", .way, .polygon⟩ ∈ Example.layeredPlan ∧
      ∃ chain root, Example.layered.SourceChain "named" (Example.layered.sink :: chain) root ∧
        (∀ chain' root', Example.layered.SourceChain "named" chain' root' →
          chain' = Example.layered.sink :: chain ∧ root' = root) ∧
        FeatureKind.way = root.feature ∧
        GeometryKind.polygon = (if (Example.layered.sink :: chain).any (·.isBuffer) then .polygon
          else root.geometry) ∧
        ∀ (other : Check) (plan' : Plan), other.plan = .ok plan' →
          (∀ s ∈ Example.layered.sink :: chain, ∃ t ∈ other.requests, s.StepsAlike t) →
            ∀ e' ∈ plan', e'.name = "named" → e' = ⟨"named", .way, .polygon⟩ := by
  have planned : Example.layered.plan = .ok Example.layeredPlan := by decide +kernel
  have request : Example.layered.sink ∈ Example.layered.requests := by simp [requests]
  have member : ⟨"named", .way, .polygon⟩ ∈ Example.layeredPlan := by decide
  exact ⟨planned, request, member, kinds_follow_source_chain planned request member rfl⟩

end Check

/-! ## The kind that is reported -/

namespace Run

def Feature.kind : Feature → FeatureKind
  | .node _ _ => .node
  | .way _ => .way
  | .relation _ => .relation

/-- Rows are read as features of the kind they are said to be about. -/
theorem Feature.kind_of_decode {declared : FeatureKind} {row : Row} {feature : Feature}
    (decoded : decode (.ofFeature declared) row = .ok feature) : feature.kind = declared := by
  obtain ⟨text, id, -, -, -, reports⟩ := decode_eq_ok_iff.1 decoded
  cases declared with
  | node =>
      obtain ⟨position, -, rfl⟩ := reports
      rfl
  | way =>
      cases reports
      rfl
  | relation =>
      cases reports
      rfl

end Run

theorem ResultKind.ofFeature_inj {first second : FeatureKind} :
    ResultKind.ofFeature first = .ofFeature second ↔ first = second := by
  cases first <;> cases second <;> decide

namespace Check

variable {c : Check}

/-- **What a pipeline reports is of the kind that the sink declares.**  That is how its rows
are read, and so of that kind is every feature that a run reports.  It is the kind of the
features in the plan exactly when the sink declares the kind of the built-in source at the
root of its chain. -/
theorem result_is_of_declared_kind {p : Pipeline} (compiled : c.compile = .ok p) :
    p.result = .ofFeature c.sink.feature ∧
      (∃ e chain root, p.plan.getLast? = some e ∧ e.name = c.sink.name ∧
        c.SourceChain c.sink.name chain root ∧
        (p.result = .ofFeature e.feature ↔ c.sink.feature = root.feature)) ∧
      ∀ (σ : Type) (runner : Run.Runner) (store : Run.Store σ) (state : σ) (id : String)
        (handle : Run.Handle), runner.find? id = some ⟨p, handle⟩ →
          ∀ issue ∈ (runner.runCheck store id state).progress.issues,
            issue.feature.kind = c.sink.feature := by
  obtain ⟨planned, -, -, result⟩ := compile_eq_ok_iff.1 compiled
  refine ⟨result, ?_, ?_⟩
  · obtain ⟨e, last, named⟩ := exists_last_of_resolve planned
    obtain ⟨chain, root, reads, made⟩ := inherited_of_resolve planned last
    refine ⟨e, chain, root, last, named, reads, ?_⟩
    have inherits : e.feature = root.feature := by
      rw [made]
      rfl
    rw [result, ResultKind.ofFeature_inj, inherits]
  · intro σ runner store state id handle found issue delivered
    rw [Run.Runner.runCheck, found] at delivered
    obtain ⟨row, read⟩ := runner.reports_of_runKnown store issue delivered
    have decoded := (Run.issueOf_eq_ok_iff.1 read).2
    rw [show (⟨p, handle⟩ : Run.Registered).pipeline.result = .ofFeature c.sink.feature from
      result] at decoded
    exact Run.Feature.kind_of_decode decoded

theorem bordered_result_is_of_declared_kind :
    Example.bordered.compile = .ok Example.borderedPipeline ∧
      Example.borderedPipeline.result = .ofFeature .node ∧
      (∃ e chain root, Example.borderedPipeline.plan.getLast? = some e ∧ e.name = "named" ∧
        Example.bordered.SourceChain "named" chain root ∧
        (Example.borderedPipeline.result = .ofFeature e.feature ↔ .node = root.feature)) ∧
      ∀ (σ : Type) (runner : Run.Runner) (store : Run.Store σ) (state : σ) (id : String)
        (handle : Run.Handle), runner.find? id = some ⟨Example.borderedPipeline, handle⟩ →
          ∀ issue ∈ (runner.runCheck store id state).progress.issues,
            issue.feature.kind = .node :=
  ⟨Example.bordered_compile, result_is_of_declared_kind Example.bordered_compile⟩

namespace Example

/-- Ways that the sink declares as nodes. -/
def mislabelled : Check where
  issueClass := ⟨"43", "9006", "2", "Road without a name"⟩
  earlier := []
  sink := nodeFilter "unnamed" "ways_linestring" (.all [.hasTag "highway", .lacksTag "name"])
  distinct := by decide
  unshadowed := by decide

def mislabelledPipeline : Pipeline where
  issueClass := mislabelled.issueClass
  plan := [⟨"ways_linestring", .way, .linestring⟩, ⟨"unnamed", .way, .linestring⟩]
  statements := [⟨"unnamed", .output,
    outputSql mislabelled.sink (.of (.all [.hasTag "highway", .lacksTag "name"]))⟩]
  result := .point

theorem mislabelled_compile : mislabelled.compile = .ok mislabelledPipeline := by
  have planned : mislabelled.plan = .ok mislabelledPipeline.plan := by decide +kernel
  exact compile_eq_ok_iff.2 ⟨planned, rfl, rfl, rfl⟩

end Example

/-- **A wrong declaration is believed.**  The sink has ways in its plan, and a row about one
of them is reported as a node. -/
theorem mislabelled_reports_way_as_node :
    (∀ r ∈ Example.mislabelled.requests, r.Made) ∧
      Example.mislabelled.compile = .ok Example.mislabelledPipeline ∧
      Example.mislabelledPipeline.plan.getLast? = some ⟨"unnamed", .way, .linestring⟩ ∧
      Example.mislabelledPipeline.result ≠ .ofFeature .way ∧
      (Run.Runner.runCheck { checks := [⟨Example.mislabelledPipeline, 0⟩] } Run.rehearsal "43"
          [{ pattern := "FROM ways_linestring", rows := [[some "5", some "LINESTRING(1 2,3 4)"]] }]
        ).progress.issues = [⟨"43", 0, .node 5 "LINESTRING(1 2,3 4)"⟩] :=
  ⟨by decide, Example.mislabelled_compile, rfl, by decide, by decide +kernel⟩

end Check

end MapAudit
