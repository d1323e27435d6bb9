import MapAudit.Run.Row

/-!
# Stores

What the library asks of a store of features: to run a statement, and to run a
query, handing over its rows one at a time.  The store learns of every row whether
it was taken, and goes on as it likes; a `Reply` is the tree of all its ways.
-/

namespace MapAudit.Run

set_option autoImplicit false

/-- The answer of a store in state `σ` to a query. -/
inductive Reply (σ : Type) where
  /-- The query is over. -/
  | done (outcome : Except RunError Unit) (after : σ)
  /-- A row is handed over; the store goes on knowing whether it was taken. -/
  | row (columns : Row) (next : Except RunError Unit → Reply σ)

/-- A store whose state is a `σ`. -/
structure Store (σ : Type) where
  /-- Run a statement. -/
  run : σ → String → Except RunError Unit × σ
  /-- Run a statement whose rows are wanted. -/
  query : σ → String → Reply σ

namespace Reply

variable {σ : Type}

/-- Take the rows of a reply, keeping what they decode to.  A counter goes up with every
row that is taken, and is given back if the query succeeds. -/
def drain {α : Type} (decode : Row → Except RunError α) :
    Reply σ → Nat → Except RunError Nat × σ × List α
  | .done outcome after, count => ((fun _ => count) <$> outcome, after, [])
  | .row columns next, count =>
      match decode columns with
      | .ok a =>
          let rest := drain decode (next (.ok ())) (count + 1)
          (rest.1, rest.2.1, a :: rest.2.2)
      | .error e => drain decode (next (.error e)) count

def mapState {τ : Type} (f : σ → τ) : Reply σ → Reply τ
  | .done outcome after => .done outcome (f after)
  | .row columns next => .row columns fun taken => mapState f (next taken)

end Reply

/-- A statement that a store was asked to run, and whether its rows were wanted. -/
structure Call where
  sql : String
  wantsRows : Bool
  deriving DecidableEq, Repr

/-- A store that also keeps the calls made to it. -/
def Store.recording {σ : Type} (store : Store σ) : Store (σ × List Call) where
  run state sql :=
    let (outcome, after) := store.run state.1 sql
    (outcome, after, state.2 ++ [⟨sql, false⟩])
  query state sql :=
    (store.query state.1 sql).mapState fun after => (after, state.2 ++ [⟨sql, true⟩])

end MapAudit.Run
