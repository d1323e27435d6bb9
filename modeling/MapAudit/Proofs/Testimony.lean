import MapAudit.Proofs.Isolation
import MapAudit.Proofs.Journalling

/-!
# The journal tells the truth

With every entry written, the journal of a scan begins and ends with the scan, and between
them tells what became of each document, in the byte order of the file names (`Accounted`).
The journal of a run begins and ends with the run, and between them tells of each statement
that succeeded, when it did (`Testified`).

Both follow the loops of the library: what one document or one statement adds to the log is
what it adds to the catalogue or to the calls that the store has answered.
-/

namespace MapAudit

set_option autoImplicit false

open Log (Entry Event Live)

/-- How often an event occurs in a log. -/
def Log.Event.occurrences (event : Event) (log : List Entry) : Nat :=
  log.countP fun e => e.event = event.name

@[simp] theorem Log.Event.occurrences_nil (event : Event) : event.occurrences [] = 0 := rfl

@[simp] theorem Log.Event.occurrences_append (event : Event) (log more : List Entry) :
    event.occurrences (log ++ more) = event.occurrences log + event.occurrences more :=
  List.countP_append

@[simp] theorem Log.Event.occurrences_cons (event other : Event) (fields : List (String × String))
    (log : List Entry) :
    event.occurrences (other.entry fields :: log) =
      event.occurrences log + if other = event then 1 else 0 := by
  have names : other.name = event.name ↔ other = event := by
    cases other <;> cases event <;> decide
  simp [occurrences, List.countP_cons, Event.entry, names]

/-! ## Scans -/

/-- What is told of a document: that it was compiled and then that it was loaded, or that it
was refused. -/
def Fate.told (fate : Fate) : List Entry :=
  match fate.outcome with
  | .ok p => [
      Event.checkCompiled.entry [("check", p.id), ("stages", toString p.plan.length),
        ("statements", toString p.statements.length)],
      Event.checkLoaded.entry [("check", p.id), ("origin", Text.ofBytes fate.path)]]
  | .error e => [
      Event.checkRejected.entry ([("origin", Text.ofBytes fate.path), ("code", e.code),
        ("reason", e.message)] ++ (e.request.map fun name => ("stage", name)).toList)]

namespace Catalogue

variable {reader : Markup.Reader} {c : Catalogue}

theorem log_loadFile (reader : Markup.Reader) (files : Files) (c : Catalogue) (path : Bytes) :
    (c.loadFile reader files path).log =
      Fate.told ⟨path, (c.loadFile reader files path).outcome⟩ := by
  rw [loadFile_eq_record]
  cases c.verdict reader (files.document path) <;> rfl

/-- **Documents are told in turn, each as what became of it.** -/
theorem log_loadFiles (reader : Markup.Reader) (files : Files) (c : Catalogue)
    (paths : List Bytes) :
    (c.loadFiles reader files paths).2 = (c.fatesOf reader files paths).flatMap Fate.told := by
  induction paths generalizing c with
  | nil => rfl
  | cons path rest ih =>
      rw [loadFiles, fatesOf, List.flatMap_cons, ← log_loadFile]
      dsimp only
      rw [ih]

/-- An event that is told once for each document of a sort occurs as often as there are such
documents. -/
theorem occurrences_told {α : Type} {event : Event} {sort : Fate → Option α}
    (once : ∀ fate : Fate, event.occurrences fate.told = (sort fate).toList.length)
    (fates : List Fate) :
    event.occurrences (fates.flatMap Fate.told) = (fates.filterMap sort).length := by
  induction fates with
  | nil => rfl
  | cons fate rest ih =>
      rw [List.flatMap_cons, Event.occurrences_append, once, ih, List.filterMap_eq_flatMap_toList,
        List.filterMap_eq_flatMap_toList, List.flatMap_cons, List.length_append]

/-- The log of a scan that came to its end, and the catalogue after it.  The scan is told first
and last.  Between them each document of the folder is told, in the byte order of the file
names, as loaded or as refused, which it is in the catalogue too.  The numbers told last are
those of the events and those of the entries. -/
structure Accounted (c : Catalogue) (names : List Bytes) (after : Catalogue)
    (fates : List Fate) (log : List Entry) : Prop where
  told : log = Event.checksLoadBegin.entry [("dir", Text.ofBytes c.folder)] ::
    (fates.flatMap Fate.told ++
      [Event.checksLoadComplete.entry [("loaded", toString after.checks.length),
        ("rejected", toString after.rejected.length)]])
  inOrder : ∃ order : List Bytes,
    order.Perm (names.filter fun name => Path.extension? name = some (Text.bytes c.extension)) ∧
      order.Pairwise (· ≤ ·) ∧ fates.map (·.path) = order.map (Path.join c.folder)
  divided : c.Divided names fates after
  compiledEvents : Event.checkCompiled.occurrences log = after.checks.length
  loadedEvents : Event.checkLoaded.occurrences log = after.checks.length
  rejectedEvents : Event.checkRejected.occurrences log = after.rejected.length

/-- **A scan that comes to its end is accounted for.** -/
theorem loadAll_accounted {files : Files} {names : List Bytes}
    (listed : files.names c.folder = .ok names) :
    c.Accounted names (c.loadAll reader files).catalogue (c.fates reader files names)
      (c.loadAll reader files).log := by
  have divided := divided_loadAll reader listed
  have whole : (c.loadAll reader files).log =
      Event.checksLoadBegin.entry [("dir", Text.ofBytes c.folder)] ::
      ((c.fates reader files names).flatMap Fate.told ++
        [Event.checksLoadComplete.entry
          [("loaded", toString (c.loadAll reader files).catalogue.checks.length),
           ("rejected", toString (c.loadAll reader files).catalogue.rejected.length)]]) := by
    rw [catalogue_loadAll listed, fates, ← log_loadFiles, loadAll, listed]
    rfl
  have compiledOnce : ∀ fate : Fate, Event.checkCompiled.occurrences fate.told =
      fate.loaded?.toList.length := by rintro ⟨path, _ | _⟩ <;> rfl
  have loadedOnce : ∀ fate : Fate, Event.checkLoaded.occurrences fate.told =
      fate.loaded?.toList.length := by rintro ⟨path, _ | _⟩ <;> rfl
  have rejectedOnce : ∀ fate : Fate, Event.checkRejected.occurrences fate.told =
      fate.rejected?.toList.length := by rintro ⟨path, _ | _⟩ <;> rfl
  refine ⟨whole, ?_, divided, ?_, ?_, ?_⟩
  · exact ⟨_, List.mergeSort_perm _ _, pairwise_sorted _, divided.each⟩
  · simp [whole, occurrences_told compiledOnce, divided.checks]
  · simp [whole, occurrences_told loadedOnce, divided.checks]
  · simp [whole, occurrences_told rejectedOnce, divided.rejected]

end Catalogue

/-! ## Runs -/

namespace Run

variable {σ : Type}

/-- A statement that was sent to the store, and how that ended. -/
structure Attempt where
  statement : Statement
  outcome : Except RunError Unit

namespace Attempt

def exchange (attempt : Attempt) : Exchange :=
  ⟨attempt.statement.call, attempt.outcome⟩

/-- What is told of a statement that was sent: that it was executed, if it succeeded. -/
def told? (check : Registered) (attempt : Attempt) : Option Entry :=
  match attempt.outcome with
  | .ok () => some (Event.statementExecuted.entry [("check", check.pipeline.id),
      ("stage", attempt.statement.relation), ("role", attempt.statement.role.name)])
  | .error _ => none

end Attempt

/-- What was added to the calls that an observed store has answered, and to the log, by
sending some statements, the first of which are those given. -/
structure Testifies (check : Registered) (attempts : List Attempt)
    (before after : Progress (σ × List Exchange)) : Prop where
  answered : after.store.2 = before.store.2 ++ attempts.map Attempt.exchange
  logged : after.log = before.log ++ attempts.filterMap (Attempt.told? check)

theorem Testifies.refl (check : Registered) (progress : Progress (σ × List Exchange)) :
    Testifies check [] progress progress :=
  ⟨(List.append_nil _).symm, (List.append_nil _).symm⟩

/-- What two runs testify to is testified to by both, one after the other. -/
theorem Testifies.trans {check : Registered} {first second : List Attempt}
    {before between after : Progress (σ × List Exchange)}
    (left : Testifies check first before between) (right : Testifies check second between after) :
    Testifies check (first ++ second) before after where
  answered := by rw [right.answered, left.answered, List.map_append, List.append_assoc]
  logged := by rw [right.logged, left.logged, List.filterMap_append, List.append_assoc]

/-- **Each statement that is sent is answered, and told if it succeeded.** -/
theorem executeAll_testifies (store : Store σ) (check : Registered) (statements : List Statement)
    (count : Nat) (progress : Progress (σ × List Exchange)) :
    ∃ attempts, attempts.map Attempt.statement <+: statements ∧
      Testifies check attempts progress
        (executeAll store.observed check statements count progress).2 := by
  induction statements generalizing count progress with
  | nil => exact ⟨[], List.prefix_rfl, .refl check progress⟩
  | cons s rest ih =>
      have sent := execute_observed store check s count progress.store.1 progress.store.2
      rw [executeAll, sent]
      generalize execute store check s count progress.store.1 = result
      obtain ⟨outcome, after, issues⟩ := result
      cases outcome with
      | error e =>
          refine ⟨[⟨s, .error e⟩], ⟨rest, rfl⟩, rfl, ?_⟩
          exact (List.append_nil _).symm
      | ok count =>
          obtain ⟨attempts, inOrder, testifies⟩ := ih count _
          let here : Attempt := ⟨s, .ok ()⟩
          have prefixed : ([here] ++ attempts).map Attempt.statement <+: s :: rest :=
            List.cons_prefix_cons.2 ⟨rfl, inOrder⟩
          exact ⟨[here] ++ attempts, prefixed, Testifies.trans ⟨rfl, rfl⟩ testifies⟩

theorem runStatements_testifies (store : Store σ) (check : Registered)
    (progress : Progress (σ × List Exchange)) :
    ∃ attempts, attempts.map Attempt.statement <+: check.pipeline.statements ∧
      Testifies check attempts progress (runStatements store.observed check progress).2 := by
  unfold runStatements
  split
  · exact executeAll_testifies store check check.pipeline.statements 0 progress
  · exact ⟨[], List.nil_prefix, .refl check progress⟩

/-- What is told last of a run: how it ended. -/
def Registered.closing (check : Registered) : Except RunError Nat → Entry
  | .ok count =>
      Event.checkRunComplete.entry [("check", check.pipeline.id), ("issues", toString count)]
  | .error e =>
      Event.checkRunFailed.entry
        [("check", check.pipeline.id), ("code", e.code), ("reason", e.message)]

namespace Runner

/-- The statements were sent in order: first those of the pipeline, and then those that drop
what it creates, if runs drop. -/
def SendsInOrder (runner : Runner) (check : Registered) (attempts : List Attempt) : Prop :=
  ∃ sent dropped, attempts.map Attempt.statement = sent ++ dropped ∧
    sent <+: check.pipeline.statements ∧
    dropped <+: if runner.dropIntermediates then check.pipeline.teardown else []

theorem runPipeline_testifies (runner : Runner) (store : Store σ) (check : Registered)
    (progress : Progress (σ × List Exchange)) :
    ∃ attempts, runner.SendsInOrder check attempts ∧
      Testifies check attempts progress (runner.runPipeline store.observed check progress).2 := by
  obtain ⟨sent, inOrder, first⟩ := runStatements_testifies store check progress
  unfold runPipeline SendsInOrder
  generalize runStatements store.observed check progress = ran at first
  obtain ⟨outcome, between⟩ := ran
  by_cases drops : runner.dropIntermediates
  · obtain ⟨dropped, inTurn, second⟩ :=
      executeAll_testifies store check check.pipeline.teardown 0 between
    refine ⟨sent ++ dropped, ⟨_, _, List.map_append, inOrder, ?_⟩, ?_⟩
    · rwa [if_pos drops]
    · simp only [if_pos drops]
      cases outcome with
      | ok => exact first.trans second
      | error e => exact first.trans second
  · refine ⟨sent, ⟨_, [], (List.append_nil _).symm, inOrder, List.nil_prefix⟩, ?_⟩
    simp only [if_neg drops]
    exact first

/-- The log of a run, which sent these statements and had this outcome.  The run is told
first, and how it ended last; between them each statement is told that succeeded, in the order
in which they were sent. -/
structure Testified (runner : Runner) (check : Registered) (attempts : List Attempt)
    (outcome : Except RunError Nat) (log : List Entry) : Prop where
  told : log = Event.checkRunBegin.entry [("check", check.pipeline.id),
      ("statements", toString check.pipeline.statements.length)] ::
    (attempts.filterMap (Attempt.told? check) ++ [check.closing outcome])
  inOrder : runner.SendsInOrder check attempts
  beginsOnce : Event.checkRunBegin.occurrences log = 1
  endsOnce : Event.checkRunComplete.occurrences log + Event.checkRunFailed.occurrences log = 1
  executedEvents : Event.statementExecuted.occurrences log =
    attempts.countP fun attempt => attempt.outcome.isOk

theorem occurrences_attempts (check : Registered) (event : Event) (attempts : List Attempt) :
    event.occurrences (attempts.filterMap (Attempt.told? check)) =
      if event = .statementExecuted then attempts.countP fun attempt => attempt.outcome.isOk
      else 0 := by
  have told : ∀ attempt : Attempt,
      ((attempt.told? check).map fun e => decide (e.event = event.name)).getD false =
        (attempt.outcome.isOk && decide (event = .statementExecuted)) := by
    rintro ⟨s, _ | _⟩
    · rfl
    · cases event <;> rfl
  rw [Event.occurrences, List.countP_filterMap]
  simp only [told]
  split_ifs with executed
  · simp [executed]
  · simp [executed]

theorem testified_of_told {runner : Runner} {check : Registered} {attempts : List Attempt}
    {outcome : Except RunError Nat} {log : List Entry} (inOrder : runner.SendsInOrder check attempts)
    (told : log = Event.checkRunBegin.entry [("check", check.pipeline.id),
        ("statements", toString check.pipeline.statements.length)] ::
      (attempts.filterMap (Attempt.told? check) ++ [check.closing outcome])) :
    runner.Testified check attempts outcome log := by
  subst told
  refine ⟨rfl, inOrder, ?_, ?_, ?_⟩
  all_goals cases outcome <;> simp [Registered.closing, occurrences_attempts]

/-- **A run of a check is testified to.** -/
theorem runKnown_testified (runner : Runner) (store : Store σ) (check : Registered) (state : σ) :
    ∃ attempts,
      (runner.runKnown store.observed check (state, [])).progress.store.2 =
        attempts.map Attempt.exchange ∧
      runner.Testified check attempts (runner.runKnown store.observed check (state, [])).outcome
        (runner.runKnown store.observed check (state, [])).progress.log := by
  unfold runKnown
  dsimp only
  generalize started : Event.checkRunBegin.entry _ = entry
  obtain ⟨attempts, inOrder, answered, logged⟩ :=
    runner.runPipeline_testifies store check { store := (state, []), log := [entry] }
  refine ⟨attempts, ?_⟩
  generalize runner.runPipeline store.observed check _ = ran at answered logged
  obtain ⟨outcome, progress⟩ := ran
  dsimp only at answered logged
  cases outcome with
  | ok =>
      refine ⟨answered, testified_of_told inOrder ?_⟩
      dsimp only
      rw [logged, ← started]
      simp [Registered.closing]
  | error e =>
      refine ⟨answered, testified_of_told inOrder ?_⟩
      dsimp only
      rw [logged, ← started]
      simp [Registered.closing]

/-- So is a run of a known id, whether it is observed or not. -/
theorem runCheck_testified {runner : Runner} {id : String} {check : Registered}
    (known : runner.find? id = some check) (store : Store σ) (state : σ) :
    ∃ attempts,
      runner.runCheck store.observed id (state, []) =
        (runner.runCheck store id state).observed (attempts.map Attempt.exchange) ∧
      runner.Testified check attempts (runner.runCheck store id state).outcome
        (runner.runCheck store id state).progress.log := by
  obtain ⟨made, observed, -⟩ := runner.runCheck_exchanges store id state
  obtain ⟨attempts, answered, testified⟩ := runner.runKnown_testified store check state
  have run : runner.runKnown store.observed check (state, []) =
      (runner.runCheck store id state).observed made := by
    rw [← observed, runCheck, known]
  rw [run] at answered testified
  have exchanges : made = attempts.map Attempt.exchange := answered
  exact ⟨attempts, exchanges ▸ observed, testified⟩

end Runner

end Run

/-- **The journal tells the truth**, when all is written.

A scan that succeeds is told first and last.  Between them each document of the folder is told,
in the byte order of the file names: that it was compiled and loaded, or that it was refused.
The numbers told last are those of these events, and those of the entries of the catalogue.

A run of a known id is told first, and last how it ended.  Between them each statement is told
that the store has executed, of the pipeline or to drop what it creates, once and in the order
in which the store was asked. -/
theorem journal_tells_the_truth {σ : Type} (reader : Markup.Reader) (files : Files)
    (c : Catalogue) (runner : Run.Runner) (store : Run.Store σ) (id : String) (state : σ) :
    (∀ after, ((Live.loadAll reader files c).under .trace).1 = (.ok (), after) →
      ∃ names, files.names c.folder = .ok names ∧
        c.Accounted names after (c.fates reader files names)
          ((Live.loadAll reader files c).under .trace).2.written) ∧
    ((∃ check ∈ runner.checks, check.pipeline.id = id) →
      ∃ check attempts, runner.find? id = some check ∧
        runner.runCheck store.observed id (state, []) =
          (runner.runCheck store id state).observed (attempts.map Run.Attempt.exchange) ∧
        runner.Testified check attempts ((Live.runCheck runner store id state).under .trace).1.1
          ((Live.runCheck runner store id state).under .trace).2.written) := by
  constructor
  · intro after ended
    have tells := (Live.loadAll_tells reader files c).neutral .trace .trace
    rw [tells.result] at ended
    obtain ⟨outcome, rfl⟩ := Prod.mk.inj ended
    rw [tells.told]
    cases listed : files.names c.folder with
    | error e =>
        rw [Catalogue.loadAll, listed] at outcome
        cases outcome
    | ok names => exact ⟨names, rfl, Catalogue.loadAll_accounted listed⟩
  · rintro ⟨other, member, own⟩
    have tells := (Live.runCheck_tells runner store id state).neutral .trace .trace
    rw [tells.result, tells.told]
    cases known : runner.find? id with
    | none => exact absurd own (by simpa using List.find?_eq_none.1 known other member)
    | some check =>
        obtain ⟨attempts, observed, testified⟩ := Run.Runner.runCheck_testified known store state
        exact ⟨check, attempts, rfl, observed, testified⟩

namespace Run.Example

/-- The second of the two fails at once, and is cleared away all the same. -/
def duo : Runner where
  checks := [⟨report "1" "roads", 0⟩, ⟨report "2" "ruins", 1⟩]

end Run.Example

theorem mixed_and_duo_journals_tell_the_truth :
    (∃ after, ((Live.loadAll Catalogue.Example.readTwo Catalogue.Example.mixed
          Catalogue.Example.catalogue).under .trace).1 = (.ok (), after) ∧
      ∃ names, Catalogue.Example.mixed.names (Text.bytes "d") = .ok names ∧
        Catalogue.Example.catalogue.Accounted names after
          (Catalogue.Example.catalogue.fates Catalogue.Example.readTwo Catalogue.Example.mixed names)
          ((Live.loadAll Catalogue.Example.readTwo Catalogue.Example.mixed
            Catalogue.Example.catalogue).under .trace).2.written) ∧
    (∃ check ∈ Run.Example.duo.checks, check.pipeline.id = "2") ∧
      ∃ check attempts, Run.Example.duo.find? "2" = some check ∧
        Run.Example.duo.runCheck Run.rehearsal.observed "2" (Run.Example.layers, []) =
          (Run.Example.duo.runCheck Run.rehearsal "2" Run.Example.layers).observed
            (attempts.map Run.Attempt.exchange) ∧
        Run.Example.duo.Testified check attempts
          ((Live.runCheck Run.Example.duo Run.rehearsal "2" Run.Example.layers).under
            .trace).1.1
          ((Live.runCheck Run.Example.duo Run.rehearsal "2" Run.Example.layers).under
            .trace).2.written := by
  obtain ⟨scan, run⟩ := journal_tells_the_truth Catalogue.Example.readTwo Catalogue.Example.mixed
    Catalogue.Example.catalogue Run.Example.duo Run.rehearsal "2" Run.Example.layers
  have known : ∃ check ∈ Run.Example.duo.checks, check.pipeline.id = "2" :=
    ⟨⟨Run.Example.report "2" "ruins", 1⟩, List.mem_cons_of_mem _ List.mem_cons_self, rfl⟩
  have ended := ((Live.loadAll_tells Catalogue.Example.readTwo Catalogue.Example.mixed
    Catalogue.Example.catalogue).neutral .trace .trace).result
  exact ⟨⟨_, ended, scan _ ended⟩, known, run known⟩

end MapAudit
