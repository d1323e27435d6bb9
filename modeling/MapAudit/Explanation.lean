import MapAudit.Pipeline

/-!
# Explanations

A plain-text account of how a check compiles, or of why it is refused.
-/

namespace MapAudit

set_option autoImplicit false

/-- What an explanation has to tell. -/
inductive Explanation where
  | accepted (id title : Option String) (plan statements : List String) (result : Option String)
  | rejected (code request reason : Option String)
  deriving DecidableEq, Repr

def Relation.summary (r : Relation) : String :=
  r.name ++ " (" ++ r.feature.name ++ "/" ++ r.geometry.name ++
    (if (Builtin.find? r.name).isSome then ", built-in" else "") ++ ")"

def Statement.summary (s : Statement) : String :=
  s.role.name ++ " " ++ s.relation

namespace Explanation

def ofPipeline (p : Pipeline) : Explanation :=
  .accepted (some p.issueClass.id) (some p.issueClass.title) (p.plan.map Relation.summary)
    (p.statements.map Statement.summary) (some p.result.name)

def ofError (e : CheckError) : Explanation :=
  .rejected (some e.code) e.request (some e.message)

/-- A labelled line, if there is something to tell. -/
def line (label : String) : Option String → List String
  | some text => [label ++ ": " ++ text]
  | none => []

/-- Items under a heading, if there are any. -/
def headed (heading : String) : List String → List String
  | [] => []
  | items => (heading ++ ":") :: items

/-- Items numbered from `n`. -/
def numbered : Nat → List String → List String
  | _, [] => []
  | n, item :: rest => ("  " ++ toString n ++ ". " ++ item) :: numbered (n + 1) rest

def lines : Explanation → List String
  | .accepted id title plan statements result =>
      ["=== EXPLAIN CHECK ===", "Status: ACCEPTED"] ++ line "Check" id ++ line "Title" title ++
        headed "Plan" (numbered 1 plan) ++
        headed "Statements" (statements.map ("  - " ++ ·)) ++ line "Result" result
  | .rejected code request reason =>
      ["=== EXPLAIN CHECK ===", "Status: REJECTED"] ++ line "Error Code" code ++
        line "Request" request ++ line "Reason" reason

/-- The text of an explanation: every line ends. -/
def render (e : Explanation) : String :=
  Text.joinWith "" (e.lines.map (· ++ "\n"))

end Explanation

end MapAudit
