import MapAudit.Proofs.Exchange
import MapAudit.Proofs.Outcome
import MapAudit.Run.Rehearsal
import Mathlib.Algebra.GroupWithZero.Nat
import Mathlib.Data.List.Nodup

/-!
# Checks run one after another

A runner runs its checks in the order it holds them.  `Runner.inTurn` runs each of them
once, from the state in which the one before it left the store.  Where no two checks have
one id, looking a check up by its id finds the check itself, so this is what running them
all does (`runEach_eq`).

Every issue that a run delivers is read from a row (`reports_of_runKnown`); it bears the id of
its check and the handle of its class (`bears_of_runKnown`), and a run that comes to its end
reports how many there are (`count_of_runKnown`).  With a store that answers by the text of a
statement alone, a run has the same outcome and delivers the same issues in every state
(`Store.Textual.runKnown`).
-/

namespace MapAudit.Run

set_option autoImplicit false

variable {σ : Type}

/-! ## What a run delivers -/

/-- The issue bears the id of a check and the handle of its class. -/
def Issue.Bears (issue : Issue) (check : Registered) : Prop :=
  issue.check = check.pipeline.id ∧ issue.handle = check.handle

/-- The check reports the issue for some row. -/
def Registered.Reports (check : Registered) (issue : Issue) : Prop :=
  ∃ row, issueOf check row = .ok issue

theorem issueOf_eq_ok_iff {check : Registered} {row : Row} {issue : Issue} :
    issueOf check row = .ok issue ↔
      issue.Bears check ∧ Feature.decode check.pipeline.result row = .ok issue.feature := by
  rw [issueOf, bind_eq_ok_iff]
  constructor
  · rintro ⟨feature, decoded, made⟩
    cases made
    exact ⟨⟨rfl, rfl⟩, decoded⟩
  · rintro ⟨⟨named, handled⟩, decoded⟩
    refine ⟨issue.feature, decoded, ?_⟩
    rw [← named, ← handled]
    rfl

theorem Registered.Reports.bears {check : Registered} {issue : Issue}
    (reports : check.Reports issue) : issue.Bears check := by
  obtain ⟨row, made⟩ := reports
  exact (issueOf_eq_ok_iff.1 made).1

/-! ### Issues and rows -/

/-- The rows that a reply hands over, if they are decoded so. -/
def Reply.handed {α : Type} (decode : Row → Except RunError α) : Reply σ → List Row
  | .done _ _ => []
  | .row columns next => columns :: handed decode (next ((fun _ => ()) <$> decode columns))

/-- **What is drained from a reply is what its rows decode to**, in their order. -/
theorem Reply.drain_eq_filterMap {α : Type} (decode : Row → Except RunError α)
    (reply : Reply σ) (count : Nat) :
    (reply.drain decode count).2.2 =
      (reply.handed decode).filterMap fun row => (decode row).toOption := by
  induction reply generalizing count with
  | done outcome after => rfl
  | row columns next ih =>
      rw [drain, handed, List.filterMap_cons]
      cases decode columns with
      | ok a => exact congrArg (a :: ·) (ih (.ok ()) _)
      | error e => exact ih (.error e) _

theorem Reply.exists_row_of_mem_drain {α : Type} {decode : Row → Except RunError α}
    {reply : Reply σ} {count : Nat} {a : α} (member : a ∈ (reply.drain decode count).2.2) :
    ∃ row, decode row = .ok a := by
  rw [drain_eq_filterMap] at member
  obtain ⟨row, -, decoded⟩ := List.mem_filterMap.1 member
  refine ⟨row, ?_⟩
  cases read : decode row with
  | ok b =>
      rw [read] at decoded
      exact congrArg Except.ok (Option.some.inj decoded)
  | error e =>
      rw [read] at decoded
      cases decoded

section Reporting

variable (store : Store σ) {check : Registered}

theorem reports_of_execute {s : Statement} {count : Nat} {state : σ} {issue : Issue}
    (delivered : issue ∈ (execute store check s count state).2.2) : check.Reports issue := by
  rw [execute] at delivered
  split at delivered
  · exact Reply.exists_row_of_mem_drain delivered
  · cases delivered

/-- All along a run, every issue is one that the check reports for some row. -/
theorem keeps_reports (check : Registered) :
    Keeps store check fun _ _ issues => ∀ issue ∈ issues, check.Reports issue := by
  have step : ∀ s count state issues, (∀ issue ∈ issues, check.Reports issue) →
      ∀ issue ∈ issues ++ (execute store check s count state).2.2, check.Reports issue := by
    intro s count state issues before issue member
    rcases List.mem_append.1 member with old | new
    · exact before issue old
    · exact reports_of_execute store new
  exact ⟨fun _ _ before => before, fun s _ => step s, fun s _ _ => step s⟩

/-- **Every issue that a run delivers is one that its check reports.** -/
theorem Runner.reports_of_runKnown (runner : Runner) {state : σ} :
    ∀ issue ∈ (runner.runKnown store check state).progress.issues, check.Reports issue :=
  (keeps_reports store check).runKnown runner state (by simp)

/-- So it bears its check. -/
theorem Runner.bears_of_runKnown (runner : Runner) {state : σ} :
    ∀ issue ∈ (runner.runKnown store check state).progress.issues, issue.Bears check :=
  fun issue delivered => (runner.reports_of_runKnown store issue delivered).bears

end Reporting

/-! ## Stores that answer by the text -/

/-- However a reply ends, it ends in one of these states. -/
def Reply.EndsIn (within : σ → Prop) : Reply σ → Prop
  | .done _ after => within after
  | .row _ next => ∀ taken, EndsIn within (next taken)

/-- No call leaves these states. -/
structure Store.Closed (store : Store σ) (within : σ → Prop) : Prop where
  runStays : ∀ state sql, within state → within (store.run state sql).2
  queryStays : ∀ state sql, within state → (store.query state sql).EndsIn within

/-- In some states, which no call leaves, the answers of a store depend on the text of the
statement alone: whether it succeeds, which rows it hands over, and how it goes on after
each of them. -/
structure Store.Textual (store : Store σ) (within : σ → Prop) : Prop
    extends store.Closed within where
  run : ∀ state other sql, within state → within other →
    (store.run state sql).1 = (store.run other sql).1
  query : ∀ state other sql, within state → within other →
    (store.query state sql).mapState (fun _ => ()) = (store.query other sql).mapState fun _ => ()

theorem Reply.EndsIn.drain {α : Type} {within : σ → Prop} {reply : Reply σ}
    (ends : reply.EndsIn within) (decode : Row → Except RunError α) (count : Nat) :
    within (reply.drain decode count).2.1 := by
  induction reply generalizing count with
  | done outcome after => exact ends
  | row columns next ih =>
      rw [Reply.drain]
      cases decode columns with
      | ok a => exact ih _ (ends _) _
      | error e => exact ih _ (ends _) _

theorem Store.Closed.execute {store : Store σ} {within : σ → Prop} (closed : store.Closed within)
    (check : Registered) (s : Statement) (count : Nat) {state : σ} (here : within state) :
    within (Run.execute store check s count state).2.1 := by
  rw [Run.execute]
  split
  · exact (closed.queryStays state s.sql here).drain _ count
  · exact closed.runStays state s.sql here

theorem Reply.mapState_eq_atEnd {τ : Type} (f : σ → τ) (reply : Reply σ) :
    reply.mapState f = reply.atEnd fun _ => f := by
  induction reply with
  | done outcome after => rfl
  | row columns next ih =>
      rw [mapState, atEnd]
      congr 1
      funext taken
      exact ih taken

/-- Replies that differ in their states alone are drained alike. -/
theorem Reply.drain_congr {α : Type} (decode : Row → Except RunError α) {reply other : Reply σ}
    (same : reply.mapState (fun _ => ()) = other.mapState fun _ => ()) (count : Nat) :
    (reply.drain decode count).1 = (other.drain decode count).1 ∧
      (reply.drain decode count).2.2 = (other.drain decode count).2.2 := by
  have drained := congrArg (drain decode · count) same
  rw [mapState_eq_atEnd, mapState_eq_atEnd, drain_atEnd, drain_atEnd] at drained
  simp only [Prod.mk.injEq, true_and] at drained
  exact drained

/-- Statements had one outcome twice, and after them the same issues are delivered and the
store is in one of these states both times. -/
structure Alike (within : σ → Prop) (first second : Except RunError Nat × Progress σ) :
    Prop where
  outcome : first.1 = second.1
  issues : first.2.issues = second.2.issues
  here : within first.2.store
  there : within second.2.store

/-- Two runs have one outcome and deliver the same issues. -/
def Report.Agrees {α : Type} (report other : Report σ α) : Prop :=
  report.outcome = other.outcome ∧ report.progress.issues = other.progress.issues

namespace Store.Textual

variable {store : Store σ} {within : σ → Prop} (textual : store.Textual within)
  (check : Registered) {progress other : Progress σ}

include textual

theorem execute (s : Statement) (count : Nat) {state other : σ} (here : within state)
    (there : within other) :
    (Run.execute store check s count state).1 = (Run.execute store check s count other).1 ∧
      (Run.execute store check s count state).2.2 =
        (Run.execute store check s count other).2.2 := by
  rw [Run.execute, Run.execute]
  split
  · exact Reply.drain_congr _ (textual.query state other s.sql here there) count
  · dsimp only
    rw [textual.run state other s.sql here there]
    exact ⟨rfl, rfl⟩

theorem executeAll (statements : List Statement) (count : Nat)
    (same : progress.issues = other.issues) (here : within progress.store)
    (there : within other.store) :
    Alike within (Run.executeAll store check statements count progress)
      (Run.executeAll store check statements count other) := by
  induction statements generalizing count progress other with
  | nil => exact ⟨rfl, same, here, there⟩
  | cons s rest ih =>
      obtain ⟨ended, delivered⟩ := textual.execute check s count here there
      have here := textual.toClosed.execute check s count here
      have there := textual.toClosed.execute check s count there
      rw [Run.executeAll, Run.executeAll]
      generalize Run.execute store check s count progress.store = first at ended delivered here
      generalize Run.execute store check s count other.store = second at ended delivered there
      obtain ⟨outcome, after, issues⟩ := first
      obtain ⟨outcome', after', issues'⟩ := second
      dsimp only at ended delivered here there ⊢
      subst ended delivered
      have together : progress.issues ++ issues = other.issues ++ issues := by rw [same]
      cases outcome with
      | error e => exact ⟨rfl, together, here, there⟩
      | ok count => exact ih count together here there

theorem runStatements (same : progress.issues = other.issues) (here : within progress.store)
    (there : within other.store) :
    Alike within (Run.runStatements store check progress)
      (Run.runStatements store check other) := by
  rw [Run.runStatements, Run.runStatements]
  split
  · exact textual.executeAll check _ 0 same here there
  · exact ⟨rfl, same, here, there⟩

theorem runPipeline (runner : Runner) (same : progress.issues = other.issues)
    (here : within progress.store) (there : within other.store) :
    Alike within (runner.runPipeline store check progress)
      (runner.runPipeline store check other) := by
  have ran := textual.runStatements check same here there
  rw [Runner.runPipeline, Runner.runPipeline]
  dsimp only
  rw [ran.outcome]
  split
  · have dropped :=
      textual.executeAll check check.pipeline.teardown 0 ran.issues ran.here ran.there
    split
    · rw [dropped.outcome]
      exact ⟨rfl, dropped.issues, dropped.here, dropped.there⟩
    · exact ⟨rfl, dropped.issues, dropped.here, dropped.there⟩
  · exact ⟨rfl, ran.issues, ran.here, ran.there⟩

/-- **A run does not depend on the state it starts from**, and stays within the states. -/
theorem runKnown (runner : Runner) {state other : σ} (here : within state)
    (there : within other) :
    (runner.runKnown store check state).Agrees (runner.runKnown store check other) ∧
      within (runner.runKnown store check state).progress.store := by
  rw [Runner.runKnown, Runner.runKnown]
  dsimp only
  generalize Log.Event.entry _ _ = started
  have ran : Alike within
      (runner.runPipeline store check { store := state, log := [started] })
      (runner.runPipeline store check { store := other, log := [started] }) :=
    textual.runPipeline check runner rfl here there
  rw [ran.outcome]
  split <;> exact ⟨⟨rfl, ran.issues⟩, ran.here⟩

end Store.Textual

/-! ## Rehearsals that answer by the text -/

/-- Rules that may always be used are left as they are. -/
theorem Rule.take?_of_unlimited {sql : String} {rules after : List Rule} {rule : Rule}
    (unlimited : ∀ rule ∈ rules, rule.left = none)
    (taken : take? sql rules = some (rule, after)) : after = rules := by
  induction rules generalizing after with
  | nil => cases taken
  | cons first rest ih =>
      have always : first.left = none := unlimited first List.mem_cons_self
      have same : first.use = first := by
        cases first
        simp_all [use]
      rw [take?] at taken
      split at taken
      · cases taken
        rw [same]
      · obtain ⟨found, later, same⟩ := Option.map_eq_some_iff.1 taken
        cases same
        have kept : found.2 = rest :=
          ih (fun other member => unlimited other (List.mem_cons_of_mem first member)) later
        rw [kept]

theorem Rule.feed_endsIn {within : List Rule → Prop} (rule : Rule) {after : List Rule}
    (left : within after) (rows : List Row) : (rule.feed after rows).EndsIn within := by
  induction rows with
  | nil => exact left
  | cons row rest ih =>
      intro taken
      cases taken with
      | ok => exact ih
      | error e =>
          dsimp only
          split
          · exact ih
          · exact left

/-- A rehearsal stays within the scripts that using a rule does not leave. -/
theorem rehearsal_closed {within : List Rule → Prop}
    (stays : ∀ sql rules rule after, within rules →
      Rule.take? sql rules = some (rule, after) → within after) : rehearsal.Closed within where
  runStays := by
    intro rules sql here
    unfold rehearsal
    dsimp only
    cases taken : Rule.take? sql rules with
    | none => exact here
    | some found =>
        have left := stays _ _ _ _ here taken
        dsimp only
        split <;> exact left
  queryStays := by
    intro rules sql here
    unfold rehearsal
    dsimp only
    cases taken : Rule.take? sql rules with
    | none => exact here
    | some found =>
        have left := stays _ _ _ _ here taken
        dsimp only
        split
        · exact left
        · exact found.1.feed_endsIn left _

/-- A script whose rules may always be used answers by the text. -/
theorem rehearsal_textual {rules : List Rule} (unlimited : ∀ rule ∈ rules, rule.left = none) :
    rehearsal.Textual (· = rules) := by
  have closed : rehearsal.Closed (· = rules) := by
    apply rehearsal_closed
    rintro sql _ rule after rfl taken
    exact Rule.take?_of_unlimited unlimited taken
  refine ⟨closed, ?_, ?_⟩
  · rintro state other sql rfl rfl
    rfl
  · rintro state other sql rfl rfl
    rfl

/-! ## One check after another -/

/-- A check, and the report of its run. -/
structure Ran (σ : Type) where
  check : Registered
  report : Report σ Nat

namespace Ran

/-- The entry of a run that came to its end: the id of the check, and the number of issues. -/
def completion? (ran : Ran σ) : Option (String × Nat) :=
  ran.report.outcome.toOption.map fun count => (ran.check.pipeline.id, count)

/-- The entry of a run that failed: the id of the check, and why. -/
def failure? (ran : Ran σ) : Option (String × RunError) :=
  match ran.report.outcome with
  | .ok _ => none
  | .error e => some (ran.check.pipeline.id, e)

def completed (ran : Ran σ) : Bool :=
  ran.report.outcome.isOk

/-- A run came to its end, or failed, and has the entry of the one or of the other. -/
theorem ending_cases (ran : Ran σ) :
    (∃ count, ran.report.outcome = .ok count ∧ ran.completed = true ∧
      ran.completion? = some (ran.check.pipeline.id, count) ∧ ran.failure? = none) ∨
    ∃ e, ran.report.outcome = .error e ∧ ran.completed = false ∧
      ran.completion? = none ∧ ran.failure? = some (ran.check.pipeline.id, e) := by
  unfold completed completion? failure?
  cases ran.report.outcome with
  | ok count => exact Or.inl ⟨count, rfl, rfl, rfl, rfl⟩
  | error e => exact Or.inr ⟨e, rfl, rfl, rfl, rfl⟩

end Ran

namespace Runner

variable {runner : Runner}

/-- Run checks one after another, each once, and each from the state in which the one
before it left the store; what each run did, and the state at the end. -/
def inTurn (runner : Runner) (store : Store σ) : List Registered → σ → List (Ran σ) × σ
  | [], state => ([], state)
  | check :: rest, state =>
      let report := runner.runKnown store check state
      let later := runner.inTurn store rest report.progress.store
      (⟨check, report⟩ :: later.1, later.2)

/-- Checks run in their order, each once. -/
theorem checks_inTurn (store : Store σ) (checks : List Registered) (state : σ) :
    (runner.inTurn store checks state).1.map (·.check) = checks := by
  induction checks generalizing state with
  | nil => rfl
  | cons check rest ih =>
      rw [inTurn, List.map_cons, ih]

/-- Each of them is the run of its check, from a state that has whatever runs keep. -/
theorem exists_state_of_mem_inTurn {store : Store σ} (within : σ → Prop)
    (keeps : ∀ check state, within state →
      within (runner.runKnown store check state).progress.store)
    {checks : List Registered} {state : σ} (start : within state) {ran : Ran σ}
    (member : ran ∈ (runner.inTurn store checks state).1) :
    ∃ before, within before ∧ ran.report = runner.runKnown store ran.check before := by
  induction checks generalizing state with
  | nil => cases member
  | cons check rest ih =>
      rw [inTurn] at member
      rcases List.mem_cons.1 member with rfl | later
      · exact ⟨state, start, rfl⟩
      · exact ih (keeps check state start) later

/-- Where no two checks have one id, the check of an id is the only one. -/
theorem find?_of_mem (distinct : (runner.checks.map (·.pipeline.id)).Nodup) {check : Registered}
    (member : check ∈ runner.checks) : runner.find? check.pipeline.id = some check := by
  exact find?_of_key distinct (by simp) member

/-- **Running checks by their ids is running the checks themselves in turn.** -/
theorem runEach_eq (store : Store σ) {checks : List Registered}
    (known : ∀ check ∈ checks, runner.find? check.pipeline.id = some check)
    (summary : Summary) (progress : Progress σ) :
    runner.runEach store checks (summary, progress) =
      let turn := runner.inTurn store checks progress.store
      (⟨summary.completed ++ turn.1.filterMap Ran.completion?,
          summary.failed ++ turn.1.filterMap Ran.failure?⟩,
        ⟨turn.2, progress.issues ++ turn.1.flatMap (·.report.progress.issues),
          progress.log ++ turn.1.flatMap (·.report.progress.log)⟩) := by
  induction checks generalizing summary progress with
  | nil => simp [runEach, inTurn]
  | cons check rest ih =>
      have found := known check List.mem_cons_self
      have others : ∀ other ∈ rest, runner.find? other.pipeline.id = some other :=
        fun other member => known other (List.mem_cons_of_mem check member)
      rw [runEach, inTurn]
      dsimp only
      rw [ih others, runCheck, found]
      dsimp only
      generalize runner.runKnown store check progress.store = report
      rcases Ran.ending_cases ⟨check, report⟩ with
        ⟨count, ended, -, completion, failure⟩ | ⟨e, ended, -, completion, failure⟩
      · dsimp only at ended
        simp [Summary.add, ended, completion, failure]
      · dsimp only at ended
        simp [Summary.add, ended, completion, failure]

end Runner

/-! ## Tallies -/

namespace Ran

theorem map_filterMap_completion? (runs : List (Ran σ)) :
    (runs.filterMap completion?).map (·.1) =
      (runs.filter completed).map (·.check.pipeline.id) := by
  induction runs with
  | nil => rfl
  | cons ran rest ih =>
      rcases ran.ending_cases with ⟨count, -, done, entry, -⟩ | ⟨e, -, done, entry, -⟩ <;>
        simp [done, entry, ih]

theorem map_filterMap_failure? (runs : List (Ran σ)) :
    (runs.filterMap failure?).map (·.1) =
      (runs.filter fun ran => !ran.completed).map (·.check.pipeline.id) := by
  induction runs with
  | nil => rfl
  | cons ran rest ih =>
      rcases ran.ending_cases with ⟨count, -, done, -, entry⟩ | ⟨e, -, done, -, entry⟩ <;>
        simp [done, entry, ih]

end Ran

theorem Summary.issueCount_eq_sum (summary : Summary) :
    summary.issueCount = (summary.completed.map (·.2)).sum := by
  have total : ∀ (entries : List (String × Nat)) (start : Nat),
      entries.foldl (fun total entry => total + entry.2) start =
        start + (entries.map (·.2)).sum := by
    intro entries
    induction entries with
    | nil => intro start; rfl
    | cons entry rest ih =>
        intro start
        rw [List.foldl_cons, ih, List.map_cons, List.sum_cons]
        omega
  rw [issueCount, total]
  omega

/-- The counts of the runs that came to their end add up to the number of issues that
bear their checks. -/
theorem sum_completion? {runs : List (Ran σ)} (counts : String → Bool)
    (told : ∀ ran ∈ runs, counts ran.check.pipeline.id = ran.completed)
    (bear : ∀ ran ∈ runs, ∀ issue ∈ ran.report.progress.issues, issue.Bears ran.check)
    (counted : ∀ ran ∈ runs, ∀ count, ran.report.outcome = .ok count →
      count = ran.report.progress.issues.length) :
    ((runs.filterMap Ran.completion?).map (·.2)).sum =
      (runs.flatMap (·.report.progress.issues)).countP fun issue => counts issue.check := by
  induction runs with
  | nil => rfl
  | cons ran rest ih =>
      have later := ih (fun other member => told other (List.mem_cons_of_mem ran member))
        (fun other member => bear other (List.mem_cons_of_mem ran member))
        (fun other member => counted other (List.mem_cons_of_mem ran member))
      have own : ∀ issue ∈ ran.report.progress.issues, counts issue.check = ran.completed := by
        intro issue member
        rw [(bear ran List.mem_cons_self issue member).1]
        exact told ran List.mem_cons_self
      rw [List.flatMap_cons, List.countP_append, ← later]
      rcases ran.ending_cases with ⟨count, ended, done, entry, -⟩ | ⟨e, -, done, entry, -⟩
      · have all : ran.report.progress.issues.countP (fun issue => counts issue.check) = count := by
          rw [counted ran List.mem_cons_self count ended, List.countP_eq_length]
          intro issue member
          rw [own issue member, done]
        simp [all, entry]
      · have none : ran.report.progress.issues.countP (fun issue => counts issue.check) = 0 := by
          rw [List.countP_eq_zero]
          intro issue member
          simp [own issue member, done]
        simp [none, entry]

/-! ## Running them all -/

namespace Runner

variable {runner : Runner}

def runs (runner : Runner) (store : Store σ) (state : σ) : List (Ran σ) :=
  (runner.inTurn store runner.checks state).1

/-- The checks of a runner run in their order, each once, and each is accounted for. -/
structure AccountsForEach (runner : Runner) (store : Store σ) (state : σ) : Prop where
  /-- The runs are those of the checks, in their order. -/
  each : (runner.runs store state).map (·.check) = runner.checks
  /-- The state at the end, and what is delivered, is what running the checks in turn
  leaves. -/
  left : (runner.runAll store state).2.store = (runner.inTurn store runner.checks state).2
  delivered : (runner.runAll store state).2.issues =
    (runner.runs store state).flatMap (·.report.progress.issues)
  /-- The summary tells which runs came to their end, and which failed. -/
  told : (runner.runAll store state).1 =
    ⟨(runner.runs store state).filterMap Ran.completion?,
      (runner.runs store state).filterMap Ran.failure?⟩
  completed : ((runner.runAll store state).1.completed.map (·.1)).Sublist
    (runner.checks.map (·.pipeline.id))
  failed : ((runner.runAll store state).1.failed.map (·.1)).Sublist
    (runner.checks.map (·.pipeline.id))
  divided : ((runner.runAll store state).1.completed.map (·.1) ++
    (runner.runAll store state).1.failed.map (·.1)).Perm (runner.checks.map (·.pipeline.id))
  /-- Where the store answers by the text, a check fares as it does on its own, from any
  state in which the store answers so. -/
  alone : ∀ within, store.Textual within → within state →
    ∀ ran ∈ runner.runs store state, ∀ other, within other →
      ran.report.Agrees (runner.runCheck store ran.check.pipeline.id other)
  /-- The issues that are counted are those of the checks that came to their end. -/
  counted : (runner.runAll store state).1.issueCount =
    (runner.runAll store state).2.issues.countP fun issue =>
      issue.check ∈ (runner.runAll store state).1.completed.map (·.1)

theorem runAll_eq (store : Store σ) (state : σ)
    (distinct : (runner.checks.map (·.pipeline.id)).Nodup) :
    runner.runAll store state =
      (⟨(runner.runs store state).filterMap Ran.completion?,
          (runner.runs store state).filterMap Ran.failure?⟩,
        ⟨(runner.inTurn store runner.checks state).2,
          (runner.runs store state).flatMap (·.report.progress.issues),
          (runner.runs store state).flatMap (·.report.progress.log)⟩) :=
  runEach_eq store (fun _ member => find?_of_mem distinct member) {} { store := state }

theorem runCheck_of_mem (store : Store σ) (state : σ)
    (distinct : (runner.checks.map (·.pipeline.id)).Nodup) {check : Registered}
    (member : check ∈ runner.checks) :
    runner.runCheck store check.pipeline.id state = runner.runKnown store check state := by
  rw [runCheck, find?_of_mem distinct member]

theorem exists_state_of_mem_runs {store : Store σ} {state : σ} {ran : Ran σ}
    (member : ran ∈ runner.runs store state) :
    ∃ before, ran.report = runner.runKnown store ran.check before := by
  obtain ⟨before, -, report⟩ :=
    exists_state_of_mem_inTurn (fun _ => True) (fun _ _ _ => True.intro) True.intro member
  exact ⟨before, report⟩

theorem bears_of_mem_runs {store : Store σ} {state : σ} {ran : Ran σ}
    (member : ran ∈ runner.runs store state) :
    ∀ issue ∈ ran.report.progress.issues, issue.Bears ran.check := by
  obtain ⟨before, report⟩ := exists_state_of_mem_runs member
  rw [report]
  exact runner.bears_of_runKnown store

theorem count_of_mem_runs {store : Store σ} {state : σ} {ran : Ran σ}
    (member : ran ∈ runner.runs store state) {count : Nat}
    (ended : ran.report.outcome = .ok count) : count = ran.report.progress.issues.length := by
  obtain ⟨before, report⟩ := exists_state_of_mem_runs member
  rw [report] at ended ⊢
  exact count_of_runKnown ended

theorem agrees_of_mem_runs {store : Store σ} {state : σ} {within : σ → Prop}
    (distinct : (runner.checks.map (·.pipeline.id)).Nodup) (textual : store.Textual within)
    (start : within state) {ran : Ran σ} (member : ran ∈ runner.runs store state) {other : σ}
    (there : within other) :
    ran.report.Agrees (runner.runCheck store ran.check.pipeline.id other) := by
  obtain ⟨before, here, report⟩ := exists_state_of_mem_inTurn within
    (fun check state here => (textual.runKnown check runner here here).2) start member
  have listed : ran.check ∈ runner.checks :=
    checks_inTurn store runner.checks state ▸ List.mem_map_of_mem member
  rw [report, runCheck_of_mem store other distinct listed]
  exact (textual.runKnown ran.check runner here there).1

/-- Of checks with ids of their own, those whose runs came to their end are told by their
ids. -/
theorem mem_completed_iff {runs : List (Ran σ)}
    (distinct : (runs.map (·.check.pipeline.id)).Nodup) {ran : Ran σ} (member : ran ∈ runs) :
    ran.check.pipeline.id ∈ (runs.filterMap Ran.completion?).map (·.1) ↔ ran.completed := by
  rw [Ran.map_filterMap_completion?]
  constructor
  · intro listed
    obtain ⟨other, kept, same⟩ := List.mem_map.1 listed
    obtain ⟨there, done⟩ := List.mem_filter.1 kept
    rwa [← List.inj_on_of_nodup_map distinct there member same]
  · intro done
    exact List.mem_map_of_mem (List.mem_filter.2 ⟨member, done⟩)

theorem accountsForEach (distinct : (runner.checks.map (·.pipeline.id)).Nodup) (store : Store σ)
    (state : σ) : runner.AccountsForEach store state := by
  have each : (runner.runs store state).map (·.check) = runner.checks :=
    checks_inTurn store runner.checks state
  have ids : (runner.runs store state).map (·.check.pipeline.id) =
      runner.checks.map (·.pipeline.id) := by
    rw [← each, List.map_map]
    rfl
  have told := runner.runAll_eq store state distinct
  have done : (runner.runAll store state).1.completed.map (·.1) =
      ((runner.runs store state).filter Ran.completed).map (·.check.pipeline.id) := by
    rw [told, Ran.map_filterMap_completion?]
  have undone : (runner.runAll store state).1.failed.map (·.1) =
      ((runner.runs store state).filter fun ran => !ran.completed).map
        (·.check.pipeline.id) := by
    rw [told, Ran.map_filterMap_failure?]
  refine ⟨each, by rw [told], by rw [told], by rw [told], ?_, ?_, ?_, ?_, ?_⟩
  · rw [done, ← ids]
    exact List.filter_sublist.map _
  · rw [undone, ← ids]
    exact List.filter_sublist.map _
  · rw [done, undone, ← ids, ← List.map_append]
    exact (List.filter_append_perm Ran.completed _).map _
  · intro within textual start ran member other there
    exact agrees_of_mem_runs distinct textual start member there
  · rw [Summary.issueCount_eq_sum, told]
    refine sum_completion?
      (fun id => id ∈ ((runner.runs store state).filterMap Ran.completion?).map (·.1)) ?_ ?_ ?_
    · intro ran member
      rw [Bool.eq_iff_iff, decide_eq_true_iff]
      exact mem_completed_iff (ids ▸ distinct) member
    · exact fun ran member => bears_of_mem_runs member
    · exact fun ran member count ended => count_of_mem_runs member ended

end Runner

/-- The pipelines of a runner are those whose classes were registered. -/
theorem pipelines_registerAll (registry : Registry) (pipelines : List Pipeline) :
    (registerAll registry pipelines).1.map (·.pipeline) = pipelines := by
  induction pipelines generalizing registry with
  | nil => rfl
  | cons p rest ih =>
      rw [registerAll]
      dsimp only
      rw [List.map_cons, ih]

/-- Registering keeps ids apart. -/
theorem nodup_ids_registerAll (registry : Registry) {pipelines : List Pipeline}
    (distinct : (pipelines.map (·.id)).Nodup) :
    ((registerAll registry pipelines).1.map (·.pipeline.id)).Nodup := by
  rw [← pipelines_registerAll registry pipelines, List.map_map] at distinct
  exact distinct

/-- **Running all checks runs each of them once, in their order, and accounts for each**,
whatever classes are registered before theirs and whatever the store does. -/
theorem runAll_accounts_for_each (registry : Registry) {pipelines : List Pipeline}
    (distinct : (pipelines.map (·.id)).Nodup) (dropIntermediates : Bool) (store : Store σ)
    (state : σ) :
    let runner : Runner := { checks := (registerAll registry pipelines).1, dropIntermediates }
    runner.checks.map (·.pipeline) = pipelines ∧ runner.AccountsForEach store state := by
  intro runner
  have distinct := nodup_ids_registerAll registry distinct
  exact ⟨pipelines_registerAll registry pipelines, Runner.accountsForEach distinct store state⟩

namespace Example

/-- A pipeline that creates a relation and reports the ways in it. -/
def report (id relation : String) : Pipeline where
  issueClass := ⟨id, "9000", "3", relation⟩
  plan := []
  statements := [
    ⟨relation, .materialize, "create " ++ relation⟩, ⟨"sink", .output, "read " ++ relation⟩]
  result := .way

/-- Three pipelines, the second of which needs a relation that cannot be created. -/
def trio : List Pipeline :=
  [report "1" "roads", report "2" "ruins", report "3" "rails"]

/-- The ruins cannot be created, and every other relation has one way. -/
def layers : List Rule :=
  [{ pattern := "create ruins", failure := some (.store "no such layer") },
    { pattern := "read", rows := [[some "5"]] }]

end Example

theorem trio_accounts_for_each :
    (Example.trio.map (·.id)).Nodup ∧ rehearsal.Textual (· = Example.layers) ∧
      let registered := registerAll {} Example.trio
      let runner : Runner := { checks := registered.1, dropIntermediates := true }
      (runner.runAll rehearsal Example.layers).1.issueCount = 2 ∧
        (runner.runAll rehearsal Example.layers).1.failed = [("2", .store "no such layer")] ∧
        runner.checks.map (·.pipeline) = Example.trio ∧
        runner.AccountsForEach rehearsal Example.layers :=
  ⟨by decide, rehearsal_textual (by decide), by decide +kernel, by decide +kernel,
    runAll_accounts_for_each {} (by decide) true rehearsal Example.layers⟩

/-! ## Turns -/

/-- What a runner can be told to do. -/
inductive Turn where
  /-- Run the check of an id. -/
  | check (id : String)
  /-- Run every check. -/
  | all

/-- What a runner answers: the outcome of a check, or what became of each. -/
inductive Answer where
  | one (outcome : Except RunError Nat)
  | every (summary : Summary)

/-- A turn that was taken: the state it found, its answer, and what was done. -/
structure Taken (σ : Type) where
  turn : Turn
  before : σ
  answer : Answer
  progress : Progress σ

namespace Runner

def take (runner : Runner) (store : Store σ) (state : σ) : Turn → Answer × Progress σ
  | .check id =>
      let report := runner.runCheck store id state
      (.one report.outcome, report.progress)
  | .all =>
      let (summary, progress) := runner.runAll store state
      (.every summary, progress)

/-- Take turns one after another, each after whatever else happens to the store
meanwhile. -/
def takeAll (runner : Runner) (store : Store σ) : List ((σ → σ) × Turn) → σ → List (Taken σ)
  | [], _ => []
  | (meanwhile, turn) :: rest, state =>
      let before := meanwhile state
      let (answer, progress) := runner.take store before turn
      ⟨turn, before, answer, progress⟩ :: runner.takeAll store rest progress.store

end Runner

end MapAudit.Run
