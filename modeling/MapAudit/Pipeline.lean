import MapAudit.Plan
import MapAudit.Statement

/-!
# Pipelines

A pipeline is what runs a check: the statements of its plan, in order, the last
of which reports features, and how to read the rows it reports.
-/

namespace MapAudit

set_option autoImplicit false

/-- The executable form of a check. -/
structure Pipeline where
  issueClass : IssueClass
  plan : Plan
  statements : List Statement
  result : ResultKind
  deriving DecidableEq, Repr

namespace Pipeline

def id (p : Pipeline) : String := p.issueClass.id

/-- The statement that reports features: the last one, if that is its role. -/
def output? (p : Pipeline) : Option Statement :=
  p.statements.getLast?.filter fun s => s.role = .output

end Pipeline

/-- The statement that drops the relation another statement created. -/
def Statement.drop (s : Statement) : Statement :=
  ⟨s.relation, .teardown, "DROP TABLE IF EXISTS " ++ s.relation ++ ";"⟩

/-- The statements that drop every relation a pipeline creates, the newest first. -/
def Pipeline.teardown (p : Pipeline) : List Statement :=
  (p.statements.reverse.filter fun s => s.role.creates).map Statement.drop

namespace Check

/-- The statement of one relation of a plan, if it needs one: a built-in source
needs one only where the store lacks it. -/
def statementOf (c : Check) (relation : Relation) : Except CheckError (Option Statement) :=
  match Builtin.find? relation.name with
  | some source => .ok (source.setup?.map fun sql => ⟨relation.name, .setup, sql⟩)
  | none =>
      match c.find? relation.name with
      | none => .error (.unknownReference relation.name)
      | some r => some <$> r.statement (r.name = c.sink.name)

def statementsOf (c : Check) : Plan → Except CheckError (List Statement)
  | [] => .ok []
  | relation :: rest => do
      let first ← c.statementOf relation
      let others ← c.statementsOf rest
      return first.toList ++ others

def compile (c : Check) : Except CheckError Pipeline := do
  let plan ← c.plan
  let statements ← c.statementsOf plan
  return {
    issueClass := c.issueClass
    plan
    statements
    result := .ofFeature c.sink.feature }

end Check

end MapAudit
