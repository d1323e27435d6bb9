import MapAudit.Proofs.Decoding
import MapAudit.Proofs.Succession

/-!
# Which issues a run delivers

A store hands over the rows of a query one at a time and is told of each whether it was
taken.  `Store.transcribed` is a store that also keeps the rows it handed over, call by
call.  It answers as the store itself does, so a run is the same run with it
(`Store.Forgets.runCheck`), and the rows it has kept afterwards are the rows that the run
was given (`Runner.fed`).

The issues of a run are what these rows decode to, in their order; rows are asked for by
the output statements of the check alone.  A store may go on after a row that was not
taken.  One that does not, but fails as the row did (`Store.Propagates`), hands over no row
after the first that does not decode, and the run fails with that row's error.
-/

namespace MapAudit.Run

set_option autoImplicit false

variable {σ τ : Type}

/-! ## Stores that keep more -/

def Progress.mapState (f : τ → σ) (progress : Progress τ) : Progress σ where
  store := f progress.store
  issues := progress.issues
  log := progress.log

def Report.mapState {α : Type} (f : τ → σ) (report : Report τ α) : Report σ α where
  outcome := report.outcome
  progress := report.progress.mapState f

/-- The rich store answers as the plain one, and its states hold those of the plain one. -/
structure Store.Forgets (rich : Store τ) (f : τ → σ) (plain : Store σ) : Prop where
  run : ∀ state sql,
    plain.run (f state) sql = ((rich.run state sql).1, f (rich.run state sql).2)
  query : ∀ state sql, plain.query (f state) sql = (rich.query state sql).mapState f

namespace Store.Forgets

variable {rich : Store τ} {f : τ → σ} {plain : Store σ} (forgets : rich.Forgets f plain)
  (check : Registered)

include forgets

theorem execute (s : Statement) (count : Nat) (state : τ) :
    Run.execute plain check s count (f state) =
      ((Run.execute rich check s count state).1, f (Run.execute rich check s count state).2.1,
        (Run.execute rich check s count state).2.2) := by
  rw [Run.execute, Run.execute]
  split
  · rw [forgets.query, Reply.mapState_eq_atEnd, Reply.drain_atEnd]
  · rw [forgets.run]

theorem executeAll (statements : List Statement) (count : Nat) (progress : Progress τ) :
    Run.executeAll plain check statements count (progress.mapState f) =
      ((Run.executeAll rich check statements count progress).1,
        (Run.executeAll rich check statements count progress).2.mapState f) := by
  induction statements generalizing count progress with
  | nil => rfl
  | cons s rest ih =>
      have step := forgets.execute check s count progress.store
      rw [Run.executeAll, Run.executeAll]
      rw [show (progress.mapState f).store = f progress.store from rfl, step]
      generalize Run.execute rich check s count progress.store = result
      obtain ⟨outcome, after, issues⟩ := result
      cases outcome with
      | error e => rfl
      | ok count =>
          dsimp only
          rw [← ih]
          rfl

theorem runStatements (progress : Progress τ) :
    Run.runStatements plain check (progress.mapState f) =
      ((Run.runStatements rich check progress).1,
        (Run.runStatements rich check progress).2.mapState f) := by
  rw [Run.runStatements, Run.runStatements]
  split
  · exact forgets.executeAll check check.pipeline.statements 0 progress
  · rfl

theorem runPipeline (runner : Runner) (progress : Progress τ) :
    runner.runPipeline plain check (progress.mapState f) =
      ((runner.runPipeline rich check progress).1,
        (runner.runPipeline rich check progress).2.mapState f) := by
  rw [Runner.runPipeline, Runner.runPipeline, forgets.runStatements]
  dsimp only
  rw [forgets.executeAll]
  split
  · split <;> rfl
  · rfl

theorem runKnown (runner : Runner) (state : τ) :
    runner.runKnown plain check (f state) = (runner.runKnown rich check state).mapState f := by
  rw [Runner.runKnown, Runner.runKnown]
  dsimp only
  generalize Log.Event.entry _ _ = started
  have ran := forgets.runPipeline check runner { store := state, log := [started] }
  rw [Progress.mapState] at ran
  rw [ran]
  generalize runner.runPipeline rich check _ = result
  obtain ⟨outcome, progress⟩ := result
  cases outcome <;> rfl

/-- **A run is the same run with a store that keeps more.** -/
theorem runCheck (runner : Runner) (id : String) (state : τ) :
    runner.runCheck plain id (f state) = (runner.runCheck rich id state).mapState f := by
  rw [Runner.runCheck, Runner.runCheck]
  cases runner.find? id with
  | none => rfl
  | some check => exact forgets.runKnown check runner state

end Store.Forgets

/-! ## Rows handed over -/

/-- Change the state at the end of a reply, knowing which rows were handed over and how it
ends. -/
def Reply.withRows : Reply σ → (List Row → Except RunError Unit → σ → τ) → Reply τ
  | .done outcome after, f => .done outcome (f [] outcome after)
  | .row columns next, f =>
      .row columns fun taken => (next taken).withRows fun rows => f (columns :: rows)

theorem Reply.drain_withRows {α : Type} (decode : Row → Except RunError α) (reply : Reply σ)
    (f : List Row → Except RunError Unit → σ → τ) (count : Nat) :
    (reply.withRows f).drain decode count =
      ((reply.drain decode count).1,
        f (reply.handed decode) (ended (reply.drain decode count).1)
          (reply.drain decode count).2.1,
        (reply.drain decode count).2.2) := by
  induction reply generalizing f count with
  | done outcome after => rw [withRows, drain, drain, handed, ended_map]
  | row columns next ih =>
      rw [withRows, drain, drain, handed]
      cases decode columns with
      | ok a =>
          dsimp only
          rw [ih (.ok ())]
          rfl
      | error e => exact ih (.error e) _ count

/-- A change that forgets the rows again is one that knows how the reply ends. -/
theorem Reply.mapState_withRows {ρ : Type} (reply : Reply σ)
    {f : List Row → Except RunError Unit → σ → τ} {g : τ → ρ} {h : Except RunError Unit → σ → ρ}
    (forgets : ∀ rows outcome after, g (f rows outcome after) = h outcome after) :
    (reply.withRows f).mapState g = reply.atEnd h := by
  induction reply generalizing f with
  | done outcome after => rw [withRows, mapState, atEnd, forgets]
  | row columns next ih =>
      rw [withRows, mapState, atEnd]
      congr 1
      funext taken
      exact ih taken fun rows => forgets (columns :: rows)

theorem Reply.atEnd_self (reply : Reply σ) : (reply.atEnd fun _ after => after) = reply := by
  induction reply with
  | done outcome after => rfl
  | row columns next ih =>
      rw [atEnd]
      congr 1
      funext taken
      exact ih taken

/-- A call to a store, how it ended, and the rows that the store handed over. -/
structure Handover extends Exchange where
  rows : List Row

def rowsOf (transcript : List Handover) : List Row :=
  transcript.flatMap (·.rows)

/-- A store that also keeps the calls made to it, how they ended, and the rows it handed
over. -/
def Store.transcribed (store : Store σ) : Store (σ × List Handover) where
  run state sql :=
    let (outcome, after) := store.run state.1 sql
    (outcome, after, state.2 ++ [⟨⟨⟨sql, false⟩, outcome⟩, []⟩])
  query state sql :=
    (store.query state.1 sql).withRows fun rows outcome after =>
      (after, state.2 ++ [⟨⟨⟨sql, true⟩, outcome⟩, rows⟩])

theorem Store.transcribed_forgets (store : Store σ) :
    store.transcribed.Forgets Prod.fst store where
  run _ _ := rfl
  query state sql := by
    refine (Reply.atEnd_self _).symm.trans (Reply.mapState_withRows _ ?_).symm
    exact fun rows outcome after => rfl

/-- A state of a store beside what was exchanged, without the rows. -/
def exchangesOf (state : σ × List Handover) : σ × List Exchange :=
  (state.1, state.2.map (·.toExchange))

theorem Store.transcribed_forgets_rows (store : Store σ) :
    store.transcribed.Forgets exchangesOf store.observed where
  run state sql := by simp [transcribed, observed, exchangesOf]
  query state sql := by
    refine (Reply.mapState_withRows _ fun rows outcome after => ?_).symm
    simp [exchangesOf]

/-- The rows that a statement is given. -/
def fedTo (store : Store σ) (check : Registered) (s : Statement) (state : σ) : List Row :=
  if s.role = .output then (store.query state s.sql).handed (issueOf check) else []

/-- A transcript grows by one handover with each statement. -/
theorem execute_transcribed (store : Store σ) (check : Registered) (s : Statement) (count : Nat)
    (state : σ) (transcript : List Handover) :
    execute store.transcribed check s count (state, transcript) =
      ((execute store check s count state).1,
        ((execute store check s count state).2.1, transcript ++
          [⟨⟨s.call, ended (execute store check s count state).1⟩, fedTo store check s state⟩]),
        (execute store check s count state).2.2) := by
  by_cases output : s.role = .output
  · have rows : s.call = ⟨s.sql, true⟩ := by simp [Statement.call, output]
    rw [execute, execute, fedTo, if_pos output, if_pos output, if_pos output, rows]
    exact Reply.drain_withRows _ _ _ count
  · have noRows : s.call = ⟨s.sql, false⟩ := by simp [Statement.call, output]
    rw [execute, execute, fedTo, if_neg output, if_neg output, if_neg output, noRows]
    dsimp only
    rw [ended_map]
    rfl

/-! ## Issues and the rows of a run -/

/-- The issue that a check finds in a row, if the row decodes to a feature. -/
def Registered.issue? (check : Registered) (row : Row) : Option Issue :=
  (Feature.decode check.pipeline.result row).toOption.map fun feature =>
    ⟨check.pipeline.id, check.handle, feature⟩

theorem toOption_issueOf (check : Registered) (row : Row) :
    (issueOf check row).toOption = check.issue? row := by
  rw [issueOf, Registered.issue?]
  cases Feature.decode check.pipeline.result row <;> rfl

theorem issueOf_eq_error_iff {check : Registered} {row : Row} {e : RunError} :
    issueOf check row = .error e ↔ Feature.decode check.pipeline.result row = .error e := by
  rw [issueOf]
  cases Feature.decode check.pipeline.result row with
  | ok feature => simp [bind, Except.bind, pure, Except.pure]
  | error fault => simp [bind, Except.bind]

/-- **One step**: the issues of a statement are those of the rows it is given. -/
theorem execute_issues (store : Store σ) (check : Registered) (s : Statement) (count : Nat)
    (state : σ) :
    (execute store check s count state).2.2 = (fedTo store check s state).filterMap check.issue? := by
  rw [execute, fedTo]
  split
  · rw [Reply.drain_eq_filterMap]
    simp only [toOption_issueOf]
  · rfl

theorem rowsOf_concat (transcript : List Handover) (last : Handover) :
    rowsOf (transcript ++ [last]) = rowsOf transcript ++ last.rows := by
  simp [rowsOf]

/-- So far the issues of a run are those of the rows of its transcript. -/
theorem keeps_issues (store : Store σ) (check : Registered) :
    Keeps store.transcribed check fun _ state issues =>
      issues = (rowsOf state.2).filterMap check.issue? := by
  have step : ∀ (s : Statement) (count : Nat) (state : σ × List Handover) (issues : List Issue),
      issues = (rowsOf state.2).filterMap check.issue? →
        issues ++ (execute store.transcribed check s count state).2.2 =
          (rowsOf (execute store.transcribed check s count state).2.1.2).filterMap
            check.issue? := by
    rintro s count ⟨state, transcript⟩ issues rfl
    rw [execute_transcribed, execute_issues]
    dsimp only
    rw [rowsOf_concat, List.filterMap_append]
  exact ⟨fun _ _ kept => kept, fun s _ => step s, fun s _ _ => step s⟩

theorem fedTo_drop {store : Store σ} {check : Registered} {s : Statement} (state : σ)
    (drops : s ∈ check.pipeline.teardown) : fedTo store check s state = [] := by
  obtain ⟨created, -, -, rfl⟩ := Pipeline.mem_teardown.1 drops
  rfl

/-- Rows were handed over to output statements of the pipeline alone. -/
def FedToOutputs (p : Pipeline) (transcript : List Handover) : Prop :=
  ∀ made ∈ transcript, made.rows ≠ [] →
    ∃ s ∈ p.statements, s.role = .output ∧ made.call = s.call

theorem FedToOutputs.concat {p : Pipeline} {transcript : List Handover} {last : Handover}
    (before : FedToOutputs p transcript)
    (here : last.rows ≠ [] → ∃ s ∈ p.statements, s.role = .output ∧ last.call = s.call) :
    FedToOutputs p (transcript ++ [last]) := by
  intro made member
  rcases List.mem_append.1 member with earlier | this
  · exact before made earlier
  · rw [List.mem_singleton.1 this]
    exact here

theorem keeps_fedToOutputs (store : Store σ) (check : Registered) :
    Keeps store.transcribed check fun _ state _ => FedToOutputs check.pipeline state.2 := by
  refine ⟨fun _ _ kept => kept, ?_, ?_⟩
  · rintro s stated count ⟨state, transcript⟩ issues kept
    rw [execute_transcribed]
    refine kept.concat fun fed => ⟨s, stated, ?_, rfl⟩
    by_contra silent
    exact fed (if_neg silent)
  · rintro s dropped outcome apart ⟨state, transcript⟩ issues kept
    rw [execute_transcribed]
    exact kept.concat fun fed => absurd (fedTo_drop state dropped) fed

/-! ## Stores that do not go on -/

/-- After a row that is not taken, the query is over and fails as the row did. -/
def Reply.Propagates : Reply σ → Prop
  | .done _ _ => True
  | .row _ next => (∀ e, ∃ after, next (.error e) = .done (.error e) after) ∧
      Propagates (next (.ok ()))

/-- In some states, which no call leaves, the store fails a query as soon as a row of it is
not taken. -/
structure Store.Propagates (store : Store σ) (within : σ → Prop) : Prop
    extends store.Closed within where
  query : ∀ state sql, within state → (store.query state sql).Propagates

/-- Either all rows decode, or all but the last do, and the outcome is what is wrong with
that one. -/
inductive UpToFault {α β : Type} (decode : Row → Except RunError α) :
    Except RunError β → List Row → Prop where
  | clear {outcome : Except RunError β} {rows : List Row}
      (good : ∀ row ∈ rows, ∃ a, decode row = .ok a) : UpToFault decode outcome rows
  | fault {rows : List Row} {row : Row} {e : RunError}
      (good : ∀ row ∈ rows, ∃ a, decode row = .ok a) (bad : decode row = .error e) :
      UpToFault decode (.error e) (rows ++ [row])

namespace UpToFault

variable {α β γ : Type} {decode : Row → Except RunError α} {outcome : Except RunError β}
  {before rows : List Row}

theorem good_of_ok {b : β} (held : UpToFault decode (.ok b) rows) :
    ∀ row ∈ rows, ∃ a, decode row = .ok a := by
  cases held with
  | clear good => exact good

theorem append (good : ∀ row ∈ before, ∃ a, decode row = .ok a)
    (held : UpToFault decode outcome rows) : UpToFault decode outcome (before ++ rows) := by
  have together : ∀ {later : List Row}, (∀ row ∈ later, ∃ a, decode row = .ok a) →
      ∀ row ∈ before ++ later, ∃ a, decode row = .ok a := by
    intro later fine row member
    rcases List.mem_append.1 member with old | new
    · exact good row old
    · exact fine row new
  cases held with
  | clear fine => exact .clear (together fine)
  | fault fine bad =>
      rw [← List.append_assoc]
      exact .fault (together fine) bad

/-- What comes after an outcome does not count once something has failed. -/
theorem bind (held : UpToFault decode outcome rows) (later : β → Except RunError γ) :
    UpToFault decode (outcome >>= later) rows := by
  cases held with
  | clear good => exact .clear good
  | fault good bad => exact .fault good bad

/-- So a row that does not decode is the last, and the outcome is what is wrong with it. -/
theorem eq_of_split {row : Row} {after : List Row} {e : RunError}
    (held : UpToFault decode outcome (before ++ row :: after)) (bad : decode row = .error e) :
    after = [] ∧ outcome = .error e ∧ ∀ row ∈ before, ∃ a, decode row = .ok a := by
  have undecoded : ¬∃ a, decode row = .ok a := by simp [bad]
  generalize split : before ++ row :: after = rows at held
  cases held with
  | clear good => exact absurd (good row (by simp [← split])) undecoded
  | @fault rows last fault good wrong =>
      -- Were there rows after this one, it would be among those that decode.
      rcases List.eq_nil_or_concat after with rfl | ⟨front, other, rfl⟩
      · obtain ⟨rfl, same⟩ := List.append_inj' split rfl
        cases same
        rw [bad] at wrong
        cases wrong
        exact ⟨rfl, rfl, good⟩
      · rw [List.concat_eq_append, ← List.cons_append, ← List.append_assoc] at split
        obtain ⟨rfl, -⟩ := List.append_inj' split rfl
        exact absurd (good row (by simp)) undecoded

end UpToFault

theorem Reply.Propagates.upToFault {α : Type} {reply : Reply σ} (propagates : reply.Propagates)
    (decode : Row → Except RunError α) (count : Nat) :
    UpToFault decode (reply.drain decode count).1 (reply.handed decode) := by
  induction reply generalizing count with
  | done outcome after => exact .clear (by simp [handed])
  | row columns next ih =>
      obtain ⟨fails, goesOn⟩ := propagates
      rw [drain, handed]
      cases decoded : decode columns with
      | ok a =>
          have first : ∀ row ∈ [columns], ∃ a, decode row = .ok a := by simp [decoded]
          exact .append first (ih _ goesOn _)
      | error e =>
          obtain ⟨after, ends⟩ := fails e
          have wrong : (fun _ => ()) <$> (.error e : Except RunError α) = .error e := rfl
          simp only [wrong, ends, drain, handed]
          rw [← List.nil_append [columns]]
          exact .fault (by simp) decoded

/-- A run is given rows that decode, up to the one that it fails with. -/
theorem keeps_upToFault {store : Store σ} {within : σ → Prop}
    (propagates : store.Propagates within) (check : Registered) :
    Keeps store.transcribed check fun outcome state _ =>
      within state.1 ∧ UpToFault (issueOf check) outcome (rowsOf state.2) := by
  refine ⟨fun _ _ ⟨here, held⟩ => ⟨here, .clear held.good_of_ok⟩, ?_, ?_⟩
  · rintro s - count ⟨state, transcript⟩ issues ⟨here, held⟩
    rw [execute_transcribed]
    refine ⟨propagates.execute check s count here, ?_⟩
    dsimp only
    rw [rowsOf_concat]
    refine .append held.good_of_ok ?_
    rw [execute, fedTo]
    split
    · exact (propagates.query state s.sql here).upToFault _ count
    · exact .clear (by simp)
  · rintro s dropped outcome apart ⟨state, transcript⟩ issues ⟨here, held⟩
    rw [execute_transcribed]
    refine ⟨propagates.execute check s apart here, ?_⟩
    dsimp only
    rw [rowsOf_concat, fedTo_drop state dropped, List.append_nil]
    exact held.bind _

/-! ### Rehearsals that do not go on -/

/-- What using a rule does not change holds of the rule that answers and of those left. -/
theorem Rule.take?_keeps {P : Rule → Prop} (kept : ∀ rule, P rule → P rule.use) {sql : String}
    {rules after : List Rule} {rule : Rule} (held : ∀ rule ∈ rules, P rule)
    (taken : take? sql rules = some (rule, after)) : P rule ∧ ∀ rule ∈ after, P rule := by
  induction rules generalizing after with
  | nil => cases taken
  | cons first rest ih =>
      rw [List.forall_mem_cons] at held
      rw [take?] at taken
      split at taken
      · cases taken
        exact ⟨held.1, List.forall_mem_cons.2 ⟨kept _ held.1, held.2⟩⟩
      · obtain ⟨found, later, same⟩ := Option.map_eq_some_iff.1 taken
        cases same
        obtain ⟨here, left⟩ := ih held.2 later
        exact ⟨here, List.forall_mem_cons.2 ⟨held.1, left⟩⟩

theorem Rule.feed_propagates {rule : Rule} (strict : rule.swallow = false) (after : List Rule)
    (rows : List Row) : (rule.feed after rows).Propagates := by
  induction rows with
  | nil => trivial
  | cons row rest ih =>
      refine ⟨fun e => ⟨after, ?_⟩, ih⟩
      simp [strict]

/-- A script none of whose rules swallows a row that is not taken. -/
def Strict (rules : List Rule) : Prop :=
  ∀ rule ∈ rules, rule.swallow = false

/-- A script that swallows no row passes every fault of a row on. -/
theorem rehearsal_propagates : rehearsal.Propagates Strict := by
  refine ⟨rehearsal_closed fun sql rules rule after strict taken =>
    (Rule.take?_keeps (fun _ same => same) strict taken).2, ?_⟩
  intro rules sql strict
  unfold rehearsal
  dsimp only
  cases taken : Rule.take? sql rules with
  | none => trivial
  | some found =>
      have here : found.1.swallow = false :=
        (Rule.take?_keeps (fun _ same => same) strict taken).1
      dsimp only
      split
      · trivial
      · exact Rule.feed_propagates here found.2 found.1.rows

/-! ## Runs -/

namespace Runner

/-- What the store hands over in a run of a check, call by call. -/
def transcript (runner : Runner) (store : Store σ) (id : String) (state : σ) : List Handover :=
  (runner.runCheck store.transcribed id (state, [])).progress.store.2

/-- The rows that a run of a check is given. -/
def fed (runner : Runner) (store : Store σ) (id : String) (state : σ) : List Row :=
  rowsOf (runner.transcript store id state)

section Known

variable {runner : Runner} {id : String} {check : Registered}
  (known : runner.find? id = some check) (store : Store σ) (state : σ)

include known

/-- What the steps of a run keep holds of the rows that were handed over in it. -/
theorem keeps_runCheck {motive : Except RunError Nat → σ × List Handover → List Issue → Prop}
    (keeps : Keeps store.transcribed check motive) (start : motive (.ok 0) (state, []) []) :
    ∃ after, motive (runner.runCheck store id state).outcome
      (after, runner.transcript store id state)
      (runner.runCheck store id state).progress.issues := by
  have same := store.transcribed_forgets.runCheck runner id (state, [])
  have held := keeps.runKnown runner (state, []) start
  have told : runner.runCheck store.transcribed id (state, []) =
      runner.runKnown store.transcribed check (state, []) := by rw [runCheck, known]
  rw [← told] at held
  rw [show runner.runCheck store id state = _ from same]
  exact ⟨_, held⟩

theorem exchanges_transcript :
    ∃ sent dropped failure undropped,
      (runner.transcript store id state).map (·.toExchange) = sent ++ dropped ∧
      SentOf check.pipeline sent failure ∧
      SentToDrop runner.dropIntermediates check.pipeline dropped undropped := by
  obtain ⟨sent, dropped, failure, undropped, order, teardown, -, observed⟩ :=
    runner.runKnown_observed store check state []
  refine ⟨sent, dropped, failure, undropped, ?_, order, teardown⟩
  have told := store.transcribed_forgets_rows.runKnown check runner (state, [])
  rw [show exchangesOf (state, []) = (state, []) from rfl, observed] at told
  have made := congrArg (fun report => report.progress.store.2) told
  rw [transcript, runCheck, known]
  exact made.symm

theorem issues_eq_filterMap_fed :
    (runner.runCheck store id state).progress.issues =
      (runner.fed store id state).filterMap check.issue? := by
  obtain ⟨after, issues⟩ :=
    keeps_runCheck known store state (keeps_issues store check) (by simp [rowsOf])
  exact issues

theorem fedToOutputs_transcript :
    FedToOutputs check.pipeline (runner.transcript store id state) := by
  obtain ⟨after, outputs⟩ :=
    keeps_runCheck known store state (keeps_fedToOutputs store check) (by simp [FedToOutputs])
  exact outputs

/-- **A store that does not go on hands over no row after one that does not decode**, and
the run fails as that row did, all rows before it having become issues. -/
theorem last_of_undecoded {within : σ → Prop} (propagates : store.Propagates within)
    (here : within state) {before after : List Row} {row : Row} {e : RunError}
    (split : runner.fed store id state = before ++ row :: after)
    (refused : Feature.decode check.pipeline.result row = .error e) :
    after = [] ∧ (runner.runCheck store id state).outcome = .error e ∧
      (runner.runCheck store id state).progress.issues.length = before.length := by
  have bad := issueOf_eq_error_iff.2 refused
  obtain ⟨final, -, held⟩ := keeps_runCheck known store state
    (keeps_upToFault propagates check) ⟨here, .clear (by simp [rowsOf])⟩
  rw [← fed, split] at held
  obtain ⟨rfl, failed, good⟩ := held.eq_of_split bad
  refine ⟨rfl, failed, ?_⟩
  have found : ∀ row ∈ before, (check.issue? row).isSome := by
    intro row member
    obtain ⟨issue, decoded⟩ := good row member
    rw [← toOption_issueOf, decoded]
    rfl
  have unfound : check.issue? row = none := by
    rw [← toOption_issueOf, bad]
    rfl
  rw [issues_eq_filterMap_fed known, split, List.filterMap_append, List.filterMap_cons, unfound,
    List.filterMap_nil, List.append_nil]
  exact List.filterMap_length_eq_length.2 found

end Known

/-- **The issues of a run are what the rows it is given decode to**, in their order and once
each.  The calls of the run are those of its statements, up to the first that fails, and then
of the statements that drop; rows are handed over in calls of output statements alone.  A run
that comes to its end reports how many issues there are.  With a store that does not go on
after a row that is not taken, the first row that does not decode is the last, and the run
fails with what is wrong with it. -/
theorem runCheck_delivers_rows_fed {runner : Runner} {id : String} {check : Registered}
    (known : runner.find? id = some check) (store : Store σ) (state : σ) :
    runner.runCheck store id state =
        (runner.runCheck store.transcribed id (state, [])).mapState Prod.fst ∧
      (∃ sent dropped failure undropped,
        (runner.transcript store id state).map (·.toExchange) = sent ++ dropped ∧
        SentOf check.pipeline sent failure ∧
        SentToDrop runner.dropIntermediates check.pipeline dropped undropped) ∧
      FedToOutputs check.pipeline (runner.transcript store id state) ∧
      (runner.runCheck store id state).progress.issues =
        (runner.fed store id state).filterMap check.issue? ∧
      (∀ count, (runner.runCheck store id state).outcome = .ok count →
        count = (runner.runCheck store id state).progress.issues.length) ∧
      ∀ within, store.Propagates within → within state →
        ∀ before row after e, runner.fed store id state = before ++ row :: after →
          Feature.decode check.pipeline.result row = .error e →
          after = [] ∧ (runner.runCheck store id state).outcome = .error e ∧
            (∃ fault, e = .rowShape fault) ∧
            (runner.runCheck store id state).progress.issues.length = before.length := by
  refine ⟨store.transcribed_forgets.runCheck runner id (state, []),
    exchanges_transcript known store state, fedToOutputs_transcript known store state,
    issues_eq_filterMap_fed known store state, ?_, ?_⟩
  · intro count
    rw [runCheck, known]
    exact count_of_runKnown
  · intro within propagates here before row after e split refused
    obtain ⟨last, failed, taken⟩ :=
      last_of_undecoded known store state propagates here split refused
    exact ⟨last, failed, Feature.exists_fault_of_decode refused, taken⟩

end Runner

namespace Example

def surveyor : Runner where
  checks := [⟨report "1" "roads", 4⟩]

/-- Two ways, and between them a row without an id. -/
def survey (swallow : Bool) : List Rule :=
  [{ pattern := "read", rows := [[some "5"], [none], [some " -7 "]], swallow := swallow }]

end Example

/-- A store that goes on after the row without an id is told both ways, and one that does
not fails there. -/
theorem surveyor_delivers_rows_fed :
    Example.surveyor.find? "1" = some ⟨Example.report "1" "roads", 4⟩ ∧
      (Example.surveyor.runCheck rehearsal "1" (Example.survey true)).progress.issues =
        [⟨"1", 4, .way 5⟩, ⟨"1", 4, .way (-7)⟩] ∧
      rehearsal.Propagates Strict ∧ Strict (Example.survey false) ∧
      Example.surveyor.fed rehearsal "1" (Example.survey false) = [[some "5"], [none]] ∧
      (Example.surveyor.runCheck rehearsal "1" (Example.survey false)).outcome =
        .error (.rowShape .missingId) ∧
      (Example.surveyor.runCheck rehearsal "1" (Example.survey false)).progress.issues.length =
        1 := by
  have known : Example.surveyor.find? "1" = some ⟨Example.report "1" "roads", 4⟩ := rfl
  obtain ⟨-, -, -, issues, -, -⟩ :=
    Runner.runCheck_delivers_rows_fed known rehearsal (Example.survey true)
  obtain ⟨-, -, -, -, -, faults⟩ :=
    Runner.runCheck_delivers_rows_fed known rehearsal (Example.survey false)
  have whole : Example.surveyor.fed rehearsal "1" (Example.survey true) =
      [[some "5"], [none], [some " -7 "]] := by decide +kernel
  have cut : Example.surveyor.fed rehearsal "1" (Example.survey false) =
      [[some "5"], [none]] := by decide +kernel
  have strict : Strict (Example.survey false) := by simp [Strict, Example.survey]
  obtain ⟨-, failed, -, taken⟩ :=
    faults Strict rehearsal_propagates strict [[some "5"]] [none] [] _ cut rfl
  rw [whole] at issues
  exact ⟨known, issues, rehearsal_propagates, strict, cut, failed, taken⟩

end MapAudit.Run
