import MapAudit.Run.Store
import MapAudit.Text.Cut

/-!
# Rehearsal stores

A store that answers from a list of rules instead of data.  The first rule that
is not used up and whose pattern occurs in the statement answers it; a statement
without a rule succeeds and has no rows.
-/

namespace MapAudit.Run

set_option autoImplicit false

/-- How a rehearsal store answers some statements. -/
structure Rule where
  /-- The text that a statement must hold. -/
  pattern : String
  /-- How often the rule may still be used; without a number, always. -/
  left : Option Nat := none
  /-- Fail at once. -/
  failure : Option RunError := none
  /-- The rows to hand over. -/
  rows : List Row := []
  /-- Go on after a row that was not taken. -/
  swallow : Bool := false
  /-- Fail after the rows. -/
  lateFailure : Option RunError := none
  deriving Repr

namespace Rule

def answers (rule : Rule) (sql : String) : Bool :=
  rule.left ≠ some 0 && Text.occurs rule.pattern sql

def use (rule : Rule) : Rule :=
  { rule with left := rule.left.map (· - 1) }

/-- The first rule that answers a statement, and the rules after it is used. -/
def take? (sql : String) : List Rule → Option (Rule × List Rule)
  | [] => none
  | rule :: rest =>
      if rule.answers sql then some (rule, rule.use :: rest)
      else (take? sql rest).map fun found => (found.1, rule :: found.2)

/-- The outcome of a statement that may fail. -/
def outcome : Option RunError → Except RunError Unit
  | some e => .error e
  | none => .ok ()

/-- Hand over rows, stopping at one that is not taken unless it is swallowed. -/
def feed (rule : Rule) (after : List Rule) : List Row → Reply (List Rule)
  | [] => .done (outcome rule.lateFailure) after
  | row :: rest =>
      .row row fun taken =>
        match taken with
        | .ok () => feed rule after rest
        | .error e => if rule.swallow then feed rule after rest else .done (.error e) after

end Rule

/-- The store that answers from rules; its state is the rules that are left. -/
def rehearsal : Store (List Rule) where
  run rules sql :=
    match Rule.take? sql rules with
    | none => (.ok (), rules)
    | some (rule, after) =>
        match rule.failure with
        | some e => (.error e, after)
        | none => (Rule.outcome rule.lateFailure, after)
  query rules sql :=
    match Rule.take? sql rules with
    | none => .done (.ok ()) rules
    | some (rule, after) =>
        match rule.failure with
        | some e => .done (.error e) after
        | none => rule.feed after rule.rows

end MapAudit.Run
