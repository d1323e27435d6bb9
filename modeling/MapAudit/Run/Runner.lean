import MapAudit.Log.Line
import MapAudit.Pipeline
import MapAudit.Run.Registry
import MapAudit.Run.Store

/-!
# Running pipelines

A runner holds pipelines together with the handles of their classes.  Running one
sends its statements to a store in order, stops at the first that fails, turns the
rows of the output statement into issues, and drops what was created.
-/

namespace MapAudit.Run

set_option autoImplicit false

/-- A finding: a feature, the check that found it, and the handle of its class. -/
structure Issue where
  check : String
  handle : Handle
  feature : Feature
  deriving DecidableEq, Repr

/-- A pipeline whose class is registered. -/
structure Registered where
  pipeline : Pipeline
  handle : Handle
  deriving Repr

/-- Pipelines that are ready to run. -/
structure Runner where
  checks : List Registered
  /-- Whether a run drops the relations it created. -/
  dropIntermediates : Bool := true
  deriving Repr

/-! ## Registration -/

/-- The class that the issues of a pipeline are registered under. -/
def classOf (p : Pipeline) : RegisteredClass :=
  ⟨p.issueClass.item, p.issueClass.level, [], p.issueClass.title⟩

def registerAll (registry : Registry) : List Pipeline → List Registered × Registry × List Log.Entry
  | [] => ([], registry, [])
  | p :: rest =>
      let handle := registry.nextHandle
      let (others, after, log) := registerAll (registry.register (classOf p)) rest
      (⟨p, handle⟩ :: others, after,
        Log.Event.classRegistered.entry
          [("check", p.id), ("item", p.issueClass.item), ("handle", toString handle.toNat)] :: log)

/-! ## Statements -/

/-- What a run has done so far. -/
structure Progress (σ : Type) where
  store : σ
  /-- The issues delivered, in order. -/
  issues : List Issue := []
  log : List Log.Entry := []

variable {σ : Type}

/-- The issue that a row of a check reports. -/
def issueOf (check : Registered) (row : Row) : Except RunError Issue := do
  let feature ← Feature.decode check.pipeline.result row
  return ⟨check.pipeline.id, check.handle, feature⟩

/-- Send one statement to the store.  Only the rows of output statements are
wanted, and counted. -/
def execute (store : Store σ) (check : Registered) (s : Statement) (count : Nat) (state : σ) :
    Except RunError Nat × σ × List Issue :=
  if s.role = .output then (store.query state s.sql).drain (issueOf check) count
  else
    let (outcome, after) := store.run state s.sql
    ((fun _ => count) <$> outcome, after, [])

/-- Send statements to the store in order, up to the first that fails. -/
def executeAll (store : Store σ) (check : Registered) :
    List Statement → Nat → Progress σ → Except RunError Nat × Progress σ
  | [], count, progress => (.ok count, progress)
  | s :: rest, count, progress =>
      let (outcome, after, issues) := execute store check s count progress.store
      let progress := { progress with store := after, issues := progress.issues ++ issues }
      match outcome with
      | .error e => (.error e, progress)
      | .ok count =>
          executeAll store check rest count { progress with
            log := progress.log ++ [Log.Event.statementExecuted.entry
              [("check", check.pipeline.id), ("stage", s.relation), ("role", s.role.name)]] }

/-- Send the statements of a pipeline, if the last of them reports features. -/
def runStatements (store : Store σ) (check : Registered) (progress : Progress σ) :
    Except RunError Nat × Progress σ :=
  if check.pipeline.output?.isSome then
    executeAll store check check.pipeline.statements 0 progress
  else (.error (.missingOutput check.pipeline.id), progress)

/-! ## Runs -/

/-- What a run leaves: its outcome, and all it did. -/
structure Report (σ α : Type) where
  outcome : Except RunError α
  progress : Progress σ

namespace Runner

def find? (runner : Runner) (id : String) : Option Registered :=
  runner.checks.find? fun check => check.pipeline.id = id

def handle? (runner : Runner) (id : String) : Option Handle :=
  (runner.find? id).map (·.handle)

/-- Run the statements of a check, and then drop what they created.  A failure of
the statements counts before a failure to drop. -/
def runPipeline (runner : Runner) (store : Store σ) (check : Registered) (progress : Progress σ) :
    Except RunError Nat × Progress σ :=
  let (outcome, progress) := runStatements store check progress
  if runner.dropIntermediates then
    let (dropped, progress) := executeAll store check check.pipeline.teardown 0 progress
    match outcome with
    | .ok count => ((fun _ => count) <$> dropped, progress)
    | .error e => (.error e, progress)
  else (outcome, progress)

def runKnown (runner : Runner) (store : Store σ) (check : Registered) (state : σ) : Report σ Nat :=
  let p := check.pipeline
  let start : Progress σ := {
    store := state
    log := [Log.Event.checkRunBegin.entry
      [("check", p.id), ("statements", toString p.statements.length)]] }
  let (outcome, progress) := runner.runPipeline store check start
  match outcome with
  | .ok count =>
      ⟨.ok count, { progress with
        log := progress.log ++ [Log.Event.checkRunComplete.entry
          [("check", p.id), ("issues", toString count)]] }⟩
  | .error e =>
      ⟨.error e, { progress with
        log := progress.log ++ [Log.Event.checkRunFailed.entry
          [("check", p.id), ("code", e.code), ("reason", e.message)]] }⟩

/-- Run the check of an id: the number of issues it found. -/
def runCheck (runner : Runner) (store : Store σ) (id : String) (state : σ) : Report σ Nat :=
  match runner.find? id with
  | none => ⟨.error (.unknownCheck id), { store := state }⟩
  | some check => runner.runKnown store check state

end Runner

/-- What became of each check of a run. -/
structure Summary where
  /-- The checks that ran to their end, with the number of issues each found. -/
  completed : List (String × Nat) := []
  /-- The checks that failed. -/
  failed : List (String × RunError) := []
  deriving Repr

namespace Summary

/-- The number of issues that completed checks found. -/
def issueCount (s : Summary) : Nat :=
  s.completed.foldl (fun total entry => total + entry.2) 0

def add (s : Summary) (id : String) : Except RunError Nat → Summary
  | .ok count => { s with completed := s.completed ++ [(id, count)] }
  | .error e => { s with failed := s.failed ++ [(id, e)] }

end Summary

namespace Runner

/-- Run checks one after another, whatever becomes of each. -/
def runEach (runner : Runner) (store : Store σ) :
    List Registered → Summary × Progress σ → Summary × Progress σ
  | [], state => state
  | check :: rest, (summary, progress) =>
      let id := check.pipeline.id
      let report := runner.runCheck store id progress.store
      runner.runEach store rest (summary.add id report.outcome, {
        store := report.progress.store
        issues := progress.issues ++ report.progress.issues
        log := progress.log ++ report.progress.log })

def runAll (runner : Runner) (store : Store σ) (state : σ) : Summary × Progress σ :=
  runner.runEach store runner.checks ({}, { store := state })

end Runner

end MapAudit.Run
