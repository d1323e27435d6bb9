import MapAudit.Log.Journal
import MapAudit.Proofs.Loading
import MapAudit.Proofs.Succession

/-!
# What a threshold has a part in

The operations of the library say what happened as a list of entries.  Here they write to
a journal while they work: `Live` is what is done with a journal at hand, and every entry
is weighed against the threshold when its event happens.  An operation in `Live` is the one
of the same name with a journal at hand.  `Live.Tells` says that such an operation has
the result of the operation it follows and has told the journal its entries, in order and
nothing else; it is shown for loading, for registering and for running, one step after
another.

So results never depend on the threshold, and what is written under one threshold is what
reaches it among all that is told.
-/

namespace MapAudit

set_option autoImplicit false

/-! ## Telling a journal -/

namespace Log

def Journal.lines (j : Journal) : List String :=
  j.written.map Entry.line

theorem Journal.recordAll_append (j : Journal) (entries more : List Entry) :
    j.recordAll (entries ++ more) = (j.recordAll entries).recordAll more :=
  List.foldl_append

/-- The entries that reach a threshold. -/
def reaching (threshold : Severity) (entries : List Entry) : List Entry :=
  entries.filter fun e => decide (threshold.rank ≤ e.severity.rank)

theorem reaching_trace (entries : List Entry) : reaching .trace entries = entries := by
  simp [reaching, Severity.rank]

/-- What is done with a journal at hand. -/
abbrev Live (α : Type) := StateM Journal α

namespace Live

variable {α β : Type}

/-- Tell the journal of an event. -/
def note (e : Entry) : Live Unit :=
  modify fun j => j.record e

/-- Do something with a fresh journal of a threshold. -/
def under (live : Live α) (threshold : Severity) : α × Journal :=
  live.run { threshold }

/-- When the journal has been told `before`, the result is `a`, and then the journal has
been told `after` in all. -/
def Tells (live : Live α) (before : List Entry) (a : α) (after : List Entry) : Prop :=
  ∀ j : Journal, live.run (j.recordAll before) = (a, j.recordAll after)

theorem Tells.pure (a : α) (log : List Entry) : Tells (pure a) log a log :=
  fun _ => rfl

theorem Tells.note (e : Entry) (log : List Entry) : Tells (note e) log () (log ++ [e]) := by
  intro j
  rw [Journal.recordAll_append]
  rfl

/-- What two operations tell stands one after the other. -/
theorem Tells.bind {live : Live α} {next : α → Live β} {before between after : List Entry} {a : α}
    {b : β} (first : Tells live before a between) (second : Tells (next a) between b after) :
    Tells (live >>= next) before b after := by
  intro j
  rw [StateT.run_bind, first j]
  exact second j

/-- What is told to a fresh journal is told to one in use. -/
theorem Tells.later {live : Live α} {log : List Entry} {a : α} (fresh : Tells live [] a log)
    (before : List Entry) : Tells live before a (before ++ log) := by
  intro j
  rw [Journal.recordAll_append]
  exact fresh (j.recordAll before)

theorem Tells.forM (entries log : List Entry) :
    Tells (entries.forM Live.note) log () (log ++ entries) := by
  induction entries generalizing log with
  | nil =>
      rw [List.append_nil]
      exact .pure () log
  | cons e rest ih =>
      rw [List.append_cons]
      exact (Tells.note e log).bind (ih (log ++ [e]))

/-- Two thresholds make no difference to the result, which is `a`.  What is told is `log`,
and the lines written under a threshold are those that reach it. -/
structure Neutral (live : Live α) (a : α) (log : List Entry) (t u : Severity) : Prop where
  same : (live.under t).1 = (live.under u).1
  result : (live.under t).1 = a
  told : (live.under .trace).2.written = log
  lines : (live.under t).2.lines = (reaching t (live.under .trace).2.written).map Entry.line

/-- An operation has its result under every threshold, and writes what reaches it. -/
theorem Tells.under {live : Live α} {log : List Entry} {a : α} (tells : Tells live [] a log)
    (t : Severity) : (live.under t).1 = a ∧ (live.under t).2.written = reaching t log := by
  have ran : live.under t = (a, ({ threshold := t } : Journal).recordAll log) := tells _
  rw [ran]
  exact ⟨rfl, Journal.written_recordAll _ log⟩

/-- **An operation that tells the journal its entries is indifferent to the threshold.** -/
theorem Tells.neutral {live : Live α} {log : List Entry} {a : α} (tells : Tells live [] a log)
    (t u : Severity) : live.Neutral a log t u := by
  have told : (live.under .trace).2.written = log := by
    rw [(tells.under .trace).2, reaching_trace]
  refine ⟨(tells.under t).1.trans (tells.under u).1.symm, (tells.under t).1, told, ?_⟩
  rw [told, Journal.lines, (tells.under t).2]

end Live

end Log

open Log (Entry Event Live)
open Log.Live (note Tells)

/-! ## Loading -/

/-- What a catalogue can be asked for. -/
inductive Catalogue.Errand where
  | load (operation : Operation)
  /-- What the document in a file compiles to, without recording it. -/
  | inspect (path : Bytes)

namespace Catalogue

/-- Change the value of a step. -/
def Step.map {α β : Type} (f : α → β) (step : Step α) : Step β :=
  ⟨step.outcome.map f, step.catalogue, step.log⟩

/-- What a step leaves besides the log. -/
def Step.result {α : Type} (step : Step α) : Except CheckError α × Catalogue :=
  (step.outcome, step.catalogue)

section Serving

variable (reader : Markup.Reader)

/-- Run an errand, with the files as they are then.  The value is the check of a single
document. -/
def serve (files : Files) (c : Catalogue) : Errand → Step (Option Pipeline)
  | .load .scan => (c.loadAll reader files).map fun _ => none
  | .load (.file path) => (c.loadFile reader files path).map some
  | .load (.text origin text) => (c.loadText reader origin text).map some
  | .inspect path => ⟨(c.inspect reader files path).map some, c, []⟩

/-- Run errands one after another. -/
def serveAll (c : Catalogue) : List (Files × Errand) → List (Step (Option Pipeline))
  | [] => []
  | (files, errand) :: rest =>
      let step := c.serve reader files errand
      step :: step.catalogue.serveAll rest

end Serving

end Catalogue

namespace Live

open Catalogue (Errand Step)

/-- A step that is told as it is. -/
def report {α : Type} (step : Step α) : Live (Except CheckError α × Catalogue) := do
  step.log.forM note
  return step.result

section Loading

variable (reader : Markup.Reader)

def loadFiles (files : Files) (c : Catalogue) : List Bytes → Live Catalogue
  | [] => return c
  | path :: rest => do
      let (_, after) ← report (c.loadFile reader files path)
      loadFiles files after rest

def loadAll (files : Files) (c : Catalogue) : Live (Except CheckError Unit × Catalogue) := do
  note (Event.checksLoadBegin.entry [("dir", Text.ofBytes c.folder)])
  match files.names c.folder with
  | .error e => return (.error e, c.clear)
  | .ok names =>
      let after ← loadFiles reader files c.clear (c.documents names)
      note (Event.checksLoadComplete.entry
        [("loaded", toString after.checks.length), ("rejected", toString after.rejected.length)])
      return (.ok (), after)

def serve (files : Files) (c : Catalogue) :
    Errand → Live (Except CheckError (Option Pipeline) × Catalogue)
  | .load .scan => do
      let (outcome, after) ← loadAll reader files c
      return (outcome.map fun _ => none, after)
  | .load (.file path) => report ((c.loadFile reader files path).map some)
  | .load (.text origin text) => report ((c.loadText reader origin text).map some)
  | .inspect path => return ((c.inspect reader files path).map some, c)

def serveAll (c : Catalogue) :
    List (Files × Errand) → Live (List (Except CheckError (Option Pipeline) × Catalogue))
  | [] => return []
  | (files, errand) :: rest => do
      let (outcome, after) ← serve reader files c errand
      let others ← serveAll after rest
      return (outcome, after) :: others

theorem report_tells {α : Type} (step : Step α) : Tells (report step) [] step.result step.log :=
  (Tells.forM step.log []).bind (.pure step.result step.log)

theorem loadFiles_tells (files : Files) (c : Catalogue) (paths : List Bytes) :
    Tells (loadFiles reader files c paths) [] (c.loadFiles reader files paths).1
      (c.loadFiles reader files paths).2 := by
  induction paths generalizing c with
  | nil => exact .pure c []
  | cons path rest ih =>
      exact (report_tells (c.loadFile reader files path)).bind ((ih _).later _)

/-- A scan tells the journal its log, document by document. -/
theorem loadAll_tells (files : Files) (c : Catalogue) :
    Tells (loadAll reader files c) [] (c.loadAll reader files).result
      (c.loadAll reader files).log := by
  unfold loadAll Catalogue.loadAll
  refine (Tells.note _ []).bind ?_
  cases files.names c.folder with
  | error e => exact .pure _ _
  | ok names =>
      refine ((loadFiles_tells reader files c.clear (c.documents names)).later _).bind ?_
      exact (Tells.note _ _).bind (.pure _ _)

theorem serve_tells (files : Files) (c : Catalogue) (errand : Errand) :
    Tells (serve reader files c errand) [] (c.serve reader files errand).result
      (c.serve reader files errand).log := by
  cases errand with
  | inspect path => exact .pure _ []
  | load operation =>
      cases operation with
      | scan => exact (loadAll_tells reader files c).bind (.pure _ _)
      | file path => exact report_tells _
      | text origin text => exact report_tells _

theorem serveAll_tells (c : Catalogue) (errands : List (Files × Errand)) :
    Tells (serveAll reader c errands) [] ((c.serveAll reader errands).map Step.result)
      ((c.serveAll reader errands).flatMap (·.log)) := by
  induction errands generalizing c with
  | nil => exact .pure [] []
  | cons first rest ih =>
      obtain ⟨files, errand⟩ := first
      refine (serve_tells reader files c errand).bind ?_
      exact ((ih _).later _).bind (.pure _ _)

end Loading

end Live

/-! ## Running -/

namespace Run

variable {σ : Type}

/-- What was done so far besides the log. -/
def Progress.done (progress : Progress σ) : σ × List Issue :=
  (progress.store, progress.issues)

/-- What a turn left besides the log. -/
def Taken.result (taken : Taken σ) : Answer × σ × List Issue :=
  (taken.answer, taken.progress.done)

end Run

namespace Live

open Run

variable {σ : Type}

def registerAll (registry : Registry) : List Pipeline → Live (List Registered × Registry)
  | [] => return ([], registry)
  | p :: rest => do
      let handle := registry.nextHandle
      note (Event.classRegistered.entry
        [("check", p.id), ("item", p.issueClass.item), ("handle", toString handle.toNat)])
      let (others, after) ← registerAll (registry.register (classOf p)) rest
      return (⟨p, handle⟩ :: others, after)

def executeAll (store : Store σ) (check : Registered) :
    List Statement → Nat → σ × List Issue → Live (Except RunError Nat × σ × List Issue)
  | [], count, done => return (.ok count, done)
  | s :: rest, count, (state, issues) =>
      let (outcome, after, found) := execute store check s count state
      match outcome with
      | .error e => return (.error e, after, issues ++ found)
      | .ok count => do
          note (Event.statementExecuted.entry
            [("check", check.pipeline.id), ("stage", s.relation), ("role", s.role.name)])
          executeAll store check rest count (after, issues ++ found)

def runStatements (store : Store σ) (check : Registered) (done : σ × List Issue) :
    Live (Except RunError Nat × σ × List Issue) :=
  if check.pipeline.output?.isSome then executeAll store check check.pipeline.statements 0 done
  else return (.error (.missingOutput check.pipeline.id), done)

def runPipeline (runner : Runner) (store : Store σ) (check : Registered) (done : σ × List Issue) :
    Live (Except RunError Nat × σ × List Issue) := do
  let (outcome, done) ← runStatements store check done
  if runner.dropIntermediates then
    let (dropped, done) ← executeAll store check check.pipeline.teardown 0 done
    match outcome with
    | .ok count => return ((fun _ => count) <$> dropped, done)
    | .error e => return (.error e, done)
  else return (outcome, done)

def runKnown (runner : Runner) (store : Store σ) (check : Registered) (state : σ) :
    Live (Except RunError Nat × σ × List Issue) := do
  let p := check.pipeline
  note (Event.checkRunBegin.entry
    [("check", p.id), ("statements", toString p.statements.length)])
  let (outcome, done) ← runPipeline runner store check (state, [])
  match outcome with
  | .ok count =>
      note (Event.checkRunComplete.entry [("check", p.id), ("issues", toString count)])
      return (.ok count, done)
  | .error e =>
      note (Event.checkRunFailed.entry
        [("check", p.id), ("code", e.code), ("reason", e.message)])
      return (.error e, done)

def runCheck (runner : Runner) (store : Store σ) (id : String) (state : σ) :
    Live (Except RunError Nat × σ × List Issue) :=
  match runner.find? id with
  | none => return (.error (.unknownCheck id), state, [])
  | some check => runKnown runner store check state

def runEach (runner : Runner) (store : Store σ) :
    List Registered → Summary × σ × List Issue → Live (Summary × σ × List Issue)
  | [], reached => return reached
  | check :: rest, (summary, state, issues) => do
      let id := check.pipeline.id
      let (outcome, state, found) ← runCheck runner store id state
      runEach runner store rest (summary.add id outcome, state, issues ++ found)

def take (runner : Runner) (store : Store σ) (state : σ) :
    Turn → Live (Answer × σ × List Issue)
  | .check id => do
      let (outcome, done) ← runCheck runner store id state
      return (.one outcome, done)
  | .all => do
      let (summary, done) ← runEach runner store runner.checks ({}, state, [])
      return (.every summary, done)

def takeAll (runner : Runner) (store : Store σ) :
    List ((σ → σ) × Turn) → σ → Live (List (Answer × σ × List Issue))
  | [], _ => return []
  | (meanwhile, turn) :: rest, state => do
      let (answer, state, issues) ← take runner store (meanwhile state) turn
      let others ← takeAll runner store rest state
      return (answer, state, issues) :: others

theorem registerAll_tells (registry : Registry) (pipelines : List Pipeline) :
    let registered := Run.registerAll registry pipelines
    Tells (registerAll registry pipelines) [] (registered.1, registered.2.1) registered.2.2 := by
  induction pipelines generalizing registry with
  | nil => exact .pure _ []
  | cons p rest ih =>
      refine (Tells.note _ []).bind ?_
      exact ((ih (registry.register (classOf p))).later _).bind (.pure _ _)

/-- **Statements**: each is told when it succeeded, before the next one is sent. -/
theorem executeAll_tells (store : Store σ) (check : Registered) (statements : List Statement)
    (count : Nat) (progress : Progress σ) :
    let ran := Run.executeAll store check statements count progress
    Tells (executeAll store check statements count progress.done) progress.log
      (ran.1, ran.2.done) ran.2.log := by
  induction statements generalizing count progress with
  | nil => exact .pure _ _
  | cons s rest ih =>
      unfold executeAll Run.executeAll Progress.done
      generalize execute store check s count progress.store = sent
      obtain ⟨outcome, after, found⟩ := sent
      cases outcome with
      | error e => exact .pure _ _
      | ok count =>
          exact (Tells.note _ progress.log).bind
            (ih count ⟨after, progress.issues ++ found, _ ++ [_]⟩)

theorem runStatements_tells (store : Store σ) (check : Registered) (progress : Progress σ) :
    let ran := Run.runStatements store check progress
    Tells (runStatements store check progress.done) progress.log (ran.1, ran.2.done)
      ran.2.log := by
  unfold runStatements Run.runStatements
  split
  · exact executeAll_tells store check _ 0 progress
  · exact .pure _ _

theorem runPipeline_tells (runner : Runner) (store : Store σ) (check : Registered)
    (progress : Progress σ) :
    let ran := runner.runPipeline store check progress
    Tells (runPipeline runner store check progress.done) progress.log (ran.1, ran.2.done)
      ran.2.log := by
  unfold runPipeline Runner.runPipeline
  refine (runStatements_tells store check progress).bind ?_
  generalize Run.runStatements store check progress = ran
  obtain ⟨outcome, progress⟩ := ran
  dsimp only
  split
  · refine (executeAll_tells store check check.pipeline.teardown 0 progress).bind ?_
    cases outcome with
    | ok => exact .pure _ _
    | error e => exact .pure _ _
  · exact .pure _ _

theorem runKnown_tells (runner : Runner) (store : Store σ) (check : Registered) (state : σ) :
    let report := runner.runKnown store check state
    Tells (runKnown runner store check state) [] (report.outcome, report.progress.done)
      report.progress.log := by
  unfold runKnown Runner.runKnown
  refine (Tells.note _ []).bind ?_
  refine (runPipeline_tells runner store check ⟨state, [], _⟩).bind ?_
  dsimp only [List.nil_append]
  generalize runner.runPipeline store check _ = ran
  obtain ⟨outcome, progress⟩ := ran
  cases outcome with
  | ok => exact (Tells.note _ progress.log).bind (.pure _ _)
  | error e => exact (Tells.note _ progress.log).bind (.pure _ _)

theorem runCheck_tells (runner : Runner) (store : Store σ) (id : String) (state : σ) :
    let report := runner.runCheck store id state
    Tells (runCheck runner store id state) [] (report.outcome, report.progress.done)
      report.progress.log := by
  unfold runCheck Runner.runCheck
  cases runner.find? id with
  | none => exact .pure _ []
  | some check => exact runKnown_tells runner store check state

theorem runEach_tells (runner : Runner) (store : Store σ) (checks : List Registered)
    (summary : Summary) (progress : Progress σ) :
    let ran := runner.runEach store checks (summary, progress)
    Tells (runEach runner store checks (summary, progress.done)) progress.log (ran.1, ran.2.done)
      ran.2.log := by
  induction checks generalizing summary progress with
  | nil => exact .pure _ _
  | cons check rest ih =>
      have first := runCheck_tells runner store check.pipeline.id progress.store
      refine (first.later progress.log).bind ?_
      exact ih (summary.add _ _) ⟨_, progress.issues ++ _, progress.log ++ _⟩

theorem take_tells (runner : Runner) (store : Store σ) (state : σ) (turn : Turn) :
    let ran := runner.take store state turn
    Tells (take runner store state turn) [] (ran.1, ran.2.done) ran.2.log := by
  cases turn with
  | check id => exact (runCheck_tells runner store id state).bind (.pure _ _)
  | all => exact (runEach_tells runner store runner.checks {} ⟨state, [], []⟩).bind (.pure _ _)

/-- **A run of turns** tells the journal what each of them told, in order. -/
theorem takeAll_tells (runner : Runner) (store : Store σ) (turns : List ((σ → σ) × Turn))
    (state : σ) :
    let taken := runner.takeAll store turns state
    Tells (takeAll runner store turns state) [] (taken.map Taken.result)
      (taken.flatMap (·.progress.log)) := by
  induction turns generalizing state with
  | nil => exact .pure [] []
  | cons first rest ih =>
      obtain ⟨meanwhile, turn⟩ := first
      refine (take_tells runner store (meanwhile state) turn).bind ?_
      exact ((ih _).later _).bind (.pure _ _)

/-- Register pipelines, and then take turns with them, with a journal at hand. -/
def session (registry : Registry) (pipelines : List Pipeline) (dropIntermediates : Bool)
    (store : Store σ) (turns : List ((σ → σ) × Turn)) (state : σ) :
    Live ((List Registered × Registry) × List (Answer × σ × List Issue)) := do
  let (checks, after) ← registerAll registry pipelines
  let taken ← takeAll { checks, dropIntermediates } store turns state
  return ((checks, after), taken)

theorem session_tells (registry : Registry) (pipelines : List Pipeline) (dropIntermediates : Bool)
    (store : Store σ) (turns : List ((σ → σ) × Turn)) (state : σ) :
    let registered := Run.registerAll registry pipelines
    let taken := Runner.takeAll ⟨registered.1, dropIntermediates⟩ store turns state
    Tells (session registry pipelines dropIntermediates store turns state) []
      ((registered.1, registered.2.1), taken.map Taken.result)
      (registered.2.2 ++ taken.flatMap (·.progress.log)) := by
  refine (registerAll_tells registry pipelines).bind ?_
  exact ((takeAll_tells _ store turns state).later _).bind (.pure _ _)

end Live

open Catalogue (Errand Step)

/-- **The threshold of the journal has a part in nothing but what is written.**  Whatever
a catalogue is asked for, and whatever turns are taken with registered pipelines and any
store: under any two thresholds the outcomes, the catalogues, the registry, the answers,
the statements that the store was asked to run and the issues are the same, and are those
of the operations without a journal.  The lines written under a threshold are, in order,
the lines of the entries that reach it among all that is told. -/
theorem threshold_selects_lines_only {σ : Type} (reader : Markup.Reader) (t u : Log.Severity)
    (c : Catalogue) (errands : List (Files × Errand)) (registry : Run.Registry)
    (pipelines : List Pipeline) (dropIntermediates : Bool) (store : Run.Store σ)
    (turns : List ((σ × List Run.Call → σ × List Run.Call) × Run.Turn)) (state : σ) :
    let served := c.serveAll reader errands
    let registered := Run.registerAll registry pipelines
    let taken := Run.Runner.takeAll ⟨registered.1, dropIntermediates⟩ store.recording turns
      (state, [])
    (Live.serveAll reader c errands).Neutral (served.map Step.result) (served.flatMap (·.log))
        t u ∧
      (Live.session registry pipelines dropIntermediates store.recording turns (state, [])).Neutral
        ((registered.1, registered.2.1), taken.map Run.Taken.result)
        (registered.2.2 ++ taken.flatMap (·.progress.log)) t u :=
  ⟨(Live.serveAll_tells reader c errands).neutral t u,
    (Live.session_tells registry pipelines dropIntermediates store.recording turns
      (state, [])).neutral t u⟩

end MapAudit
