import MapAudit.Proofs.Counting

/-!
# What a run asks of its store

`Store.observed` is a store that also keeps every call made to it and how the call
ended.  It answers as the store itself does, so a run is the same run with it, and what
it has kept afterwards is what the run asked for.

Statements are sent in order, up to and including the first that fails (`Sent`).  A run
of a check sends the statements of its pipeline in this way, unless the last of them is
no output statement, and then the statements that drop what the pipeline creates,
whatever became of the others.
-/

namespace MapAudit

set_option autoImplicit false

/-- The call that sends a statement.  Rows are wanted of output statements alone. -/
def Statement.call (s : Statement) : Run.Call :=
  ⟨s.sql, s.role = .output⟩

namespace Run

variable {σ : Type}

/-! ## Observed stores -/

/-- A call to a store, and how it ended. -/
structure Exchange where
  call : Call
  outcome : Except RunError Unit

/-- Change the state at the end of a reply, knowing how it ends. -/
def Reply.atEnd {τ : Type} (f : Except RunError Unit → σ → τ) : Reply σ → Reply τ
  | .done outcome after => .done outcome (f outcome after)
  | .row columns next => .row columns fun taken => atEnd f (next taken)

/-- Whether something succeeded, or how it failed. -/
def ended {α : Type} (outcome : Except RunError α) : Except RunError Unit :=
  (fun _ => ()) <$> outcome

theorem ended_map {α : Type} (a : α) (outcome : Except RunError Unit) :
    ended ((fun _ => a) <$> outcome) = outcome := by
  cases outcome <;> rfl

theorem Reply.drain_atEnd {τ α : Type} (f : Except RunError Unit → σ → τ)
    (decode : Row → Except RunError α) (reply : Reply σ) (count : Nat) :
    (reply.atEnd f).drain decode count =
      ((reply.drain decode count).1,
        f (ended (reply.drain decode count).1) (reply.drain decode count).2.1,
        (reply.drain decode count).2.2) := by
  induction reply generalizing count with
  | done outcome after => rw [atEnd, drain, drain, ended_map]
  | row columns next ih =>
      rw [atEnd, drain, drain]
      cases decode columns with
      | ok a =>
          dsimp only
          rw [ih (.ok ())]
      | error e => exact ih (.error e) count

/-- A store that also keeps the calls made to it, and how they ended. -/
def Store.observed (store : Store σ) : Store (σ × List Exchange) where
  run state sql :=
    let (outcome, after) := store.run state.1 sql
    (outcome, after, state.2 ++ [⟨⟨sql, false⟩, outcome⟩])
  query state sql :=
    (store.query state.1 sql).atEnd fun outcome after =>
      (after, state.2 ++ [⟨⟨sql, true⟩, outcome⟩])

/-- What a run has done so far, beside the exchanges made so far. -/
def Progress.observed (progress : Progress σ) (made : List Exchange) :
    Progress (σ × List Exchange) where
  store := (progress.store, made)
  issues := progress.issues
  log := progress.log

/-- What a run leaves, beside the exchanges made. -/
def Report.observed {α : Type} (report : Report σ α) (made : List Exchange) :
    Report (σ × List Exchange) α where
  outcome := report.outcome
  progress := report.progress.observed made

/-- **One step**: a statement is one call, and ends as its exchange does. -/
theorem execute_observed (store : Store σ) (check : Registered) (s : Statement) (count : Nat)
    (state : σ) (made : List Exchange) :
    execute store.observed check s count (state, made) =
      ((execute store check s count state).1,
        ((execute store check s count state).2.1,
          made ++ [⟨s.call, ended (execute store check s count state).1⟩]),
        (execute store check s count state).2.2) := by
  by_cases output : s.role = .output
  · have rows : s.call = ⟨s.sql, true⟩ := by simp [Statement.call, output]
    rw [execute, execute, if_pos output, if_pos output, rows]
    exact Reply.drain_atEnd _ _ _ count
  · have noRows : s.call = ⟨s.sql, false⟩ := by simp [Statement.call, output]
    rw [execute, execute, if_neg output, if_neg output, noRows]
    dsimp only
    rw [ended_map]
    rfl

/-! ## Statements in order -/

def succeeded (s : Statement) : Exchange :=
  ⟨s.call, .ok ()⟩

/-- Statements were sent in order, up to and including the first that failed, and this
is its failure. -/
inductive Sent (statements : List Statement) : List Exchange → Option RunError → Prop where
  | all : Sent statements (statements.map succeeded) none
  | upTo (done : List Statement) (e : RunError) {s : Statement} {rest : List Statement}
      (split : statements = done ++ s :: rest) :
      Sent statements (done.map succeeded ++ [⟨s.call, .error e⟩]) (some e)

theorem Sent.next {s : Statement} {rest : List Statement} {sent : List Exchange}
    {failure : Option RunError} (later : Sent rest sent failure) :
    Sent (s :: rest) (succeeded s :: sent) failure := by
  cases later with
  | all => exact .all
  | upTo done e split => exact .upTo (s :: done) e (by rw [split, List.cons_append])

/-- The outcome of a run, from its failure if there is one. -/
def ending {α : Type} (a : α) : Option RunError → Except RunError α
  | some e => .error e
  | none => .ok a

/-- **Statements are sent in order, up to and including the first that fails**, and
observing them changes nothing. -/
theorem executeAll_observed (store : Store σ) (check : Registered) (statements : List Statement)
    (count : Nat) (progress : Progress σ) (made : List Exchange) :
    ∃ sent failure total, Sent statements sent failure ∧
      (executeAll store check statements count progress).1 = ending total failure ∧
      executeAll store.observed check statements count (progress.observed made) =
        (ending total failure,
          (executeAll store check statements count progress).2.observed (made ++ sent)) := by
  induction statements generalizing count progress made with
  | nil => exact ⟨[], none, count, .all, rfl, by simp [executeAll, ending]⟩
  | cons s rest ih =>
      have step := execute_observed store check s count progress.store made
      rw [executeAll, executeAll]
      rw [show (progress.observed made).store = (progress.store, made) from rfl, step]
      generalize execute store check s count progress.store = result
      obtain ⟨outcome, after, issues⟩ := result
      cases outcome with
      | error e => exact ⟨[⟨s.call, .error e⟩], some e, count, .upTo [] e rfl, rfl, rfl⟩
      | ok count =>
          dsimp only
          obtain ⟨sent, failure, total, order, outcome, same⟩ := ih count
            ⟨after, progress.issues ++ issues,
              progress.log ++ [Log.Event.statementExecuted.entry
                [("check", check.pipeline.id), ("stage", s.relation), ("role", s.role.name)]]⟩
            (made ++ [succeeded s])
          rw [List.append_assoc, List.singleton_append] at same
          exact ⟨succeeded s :: sent, failure, total, order.next, outcome, same⟩

/-! ## Runs -/

/-- What was sent of the statements of a pipeline, and why they did not run to their
end, if so.  They are sent if the last of them is an output statement. -/
def SentOf (p : Pipeline) (sent : List Exchange) (failure : Option RunError) : Prop :=
  if p.statements.getLast?.map (·.role) = some .output then Sent p.statements sent failure
  else sent = [] ∧ failure = some (.missingOutput p.id)

/-- What was sent to drop what a pipeline creates, and why that did not run to its end,
if so. -/
def SentToDrop (drops : Bool) (p : Pipeline) (sent : List Exchange)
    (failure : Option RunError) : Prop :=
  if drops then Sent p.teardown sent failure else sent = [] ∧ failure = none

theorem output?_isSome_iff (p : Pipeline) :
    p.output?.isSome ↔ p.statements.getLast?.map (·.role) = some .output := by
  cases last : p.statements.getLast? with
  | none => simp [Pipeline.output?, last]
  | some s => simp [Pipeline.output?, last, Option.filter]

theorem runStatements_observed (store : Store σ) (check : Registered) (progress : Progress σ)
    (made : List Exchange) :
    ∃ sent failure total, SentOf check.pipeline sent failure ∧
      (runStatements store check progress).1 = ending total failure ∧
      runStatements store.observed check (progress.observed made) =
        (ending total failure,
          (runStatements store check progress).2.observed (made ++ sent)) := by
  rw [runStatements, runStatements]
  unfold SentOf
  by_cases output : check.pipeline.statements.getLast?.map (·.role) = some .output
  · simp only [(output?_isSome_iff check.pipeline).2 output, if_pos output, if_true]
    exact executeAll_observed store check check.pipeline.statements 0 progress made
  · have missing := mt (output?_isSome_iff check.pipeline).1 output
    simp only [if_neg missing, if_neg output]
    exact ⟨[], _, 0, ⟨rfl, rfl⟩, rfl, by simp [ending]⟩

namespace Runner

/-- A run sends statements of its pipeline up to a failure, and then drops what was created. -/
theorem runPipeline_observed (runner : Runner) (store : Store σ) (check : Registered)
    (progress : Progress σ) (made : List Exchange) :
    ∃ sent dropped failure undropped total, SentOf check.pipeline sent failure ∧
      SentToDrop runner.dropIntermediates check.pipeline dropped undropped ∧
      (runner.runPipeline store check progress).1 = ending total (failure.or undropped) ∧
      runner.runPipeline store.observed check (progress.observed made) =
        (ending total (failure.or undropped),
          (runner.runPipeline store check progress).2.observed (made ++ (sent ++ dropped))) := by
  obtain ⟨sent, failure, total, order, outcome, same⟩ :=
    runStatements_observed store check progress made
  rw [runPipeline, runPipeline, same]
  dsimp only
  rw [outcome]
  unfold SentToDrop
  by_cases drops : runner.dropIntermediates
  · obtain ⟨dropped, undropped, apart, reverse, outcome, same⟩ := executeAll_observed store check
      check.pipeline.teardown 0 (runStatements store check progress).2 (made ++ sent)
    rw [List.append_assoc] at same
    refine ⟨sent, dropped, failure, undropped, total, order, by rwa [if_pos drops], ?_⟩
    simp only [if_pos drops, same, outcome]
    cases failure with
    | none => cases undropped <;> exact ⟨rfl, rfl⟩
    | some e => exact ⟨rfl, rfl⟩
  · refine ⟨sent, [], failure, none, total, order, by rw [if_neg drops]; exact ⟨rfl, rfl⟩, ?_⟩
    rw [if_neg drops, if_neg drops, List.append_nil, Option.or_none]
    exact ⟨rfl, rfl⟩

theorem runKnown_observed (runner : Runner) (store : Store σ) (check : Registered) (state : σ)
    (made : List Exchange) :
    ∃ sent dropped failure undropped, SentOf check.pipeline sent failure ∧
      SentToDrop runner.dropIntermediates check.pipeline dropped undropped ∧
      (runner.runKnown store check state).outcome =
        ending (runner.runKnown store check state).progress.issues.length
          (failure.or undropped) ∧
      runner.runKnown store.observed check (state, made) =
        (runner.runKnown store check state).observed (made ++ (sent ++ dropped)) := by
  obtain ⟨sent, dropped, failure, undropped, total, order, reverse, outcome, same⟩ :=
    runner.runPipeline_observed store check
      { store := state
        log := [Log.Event.checkRunBegin.entry [("check", check.pipeline.id),
          ("statements", toString check.pipeline.statements.length)]] } made
  have reported : (runner.runKnown store check state).outcome =
      ending total (failure.or undropped) := by
    rw [runKnown]
    dsimp only
    rw [outcome]
    cases failure.or undropped <;> rfl
  refine ⟨sent, dropped, failure, undropped, order, reverse, ?_, ?_⟩
  · rw [reported]
    cases failed : failure.or undropped with
    | none =>
        rw [failed] at reported
        rw [count_of_runKnown reported]
    | some e => rfl
  · unfold Progress.observed at same
    rw [runKnown, runKnown]
    dsimp only at same ⊢
    rw [same, outcome]
    cases failure.or undropped <;> rfl

/-- **What a run of a check asks of its store**, and how it ends.  Nothing is asked for
an id that no check has.  Otherwise the first check of the id runs: its statements are
sent in order up to and including the first that fails, unless the last of them is no
output statement; and then, whatever became of them, the statements that drop what it
creates, likewise, if runs drop.  A failure of the statements counts before a failure to
drop. -/
theorem runCheck_exchanges (runner : Runner) (store : Store σ) (id : String) (state : σ) :
    ∃ made,
      runner.runCheck store.observed id (state, []) =
        (runner.runCheck store id state).observed made ∧
      ((∀ check ∈ runner.checks, check.pipeline.id ≠ id) ∧ made = [] ∧
          (runner.runCheck store id state).outcome = .error (.unknownCheck id) ∨
        ∃ before check after sent dropped failure undropped,
          runner.checks = before ++ check :: after ∧
          (∀ other ∈ before, other.pipeline.id ≠ id) ∧ check.pipeline.id = id ∧
          made = sent ++ dropped ∧ SentOf check.pipeline sent failure ∧
          SentToDrop runner.dropIntermediates check.pipeline dropped undropped ∧
          (runner.runCheck store id state).outcome =
            ending (runner.runCheck store id state).progress.issues.length
              (failure.or undropped)) := by
  rw [runCheck, runCheck]
  cases found : runner.find? id with
  | none =>
      refine ⟨[], rfl, Or.inl ⟨fun check member => ?_, rfl, rfl⟩⟩
      simpa using List.find?_eq_none.1 found check member
  | some check =>
      obtain ⟨own, before, after, split, others⟩ := List.find?_eq_some_iff_append.1 found
      obtain ⟨sent, dropped, failure, undropped, order, reverse, outcome, same⟩ :=
        runner.runKnown_observed store check state []
      refine ⟨sent ++ dropped, same, Or.inr ⟨before, check, after, sent, dropped, failure,
        undropped, split, ?_, ?_, rfl, order, reverse, outcome⟩⟩
      · intro other earlier
        simpa using others other earlier
      · simpa using own

end Runner

end Run

end MapAudit
