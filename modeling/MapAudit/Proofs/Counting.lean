import MapAudit.Proofs.Outcome
import MapAudit.Run.Runner

/-!
# Induction along a run, and its counter

A run sends its statements one after another, and then those that drop what it created.
`Keeps` says that no such step breaks a property of the outcome so far, the state of the
store and the issues delivered; then the property holds at the end (`Keeps.runKnown`).

The first use is the counter.  It is raised apart from the delivery of the issues, with each
row that is taken, and the outcome of a run is what it has come to.  Every step keeps it
equal to the number of issues (`keeps_count`), so that is what a run reports.
-/

namespace MapAudit

set_option autoImplicit false

theorem Pipeline.mem_teardown {p : Pipeline} {t : Statement} :
    t ∈ p.teardown ↔ ∃ s ∈ p.statements, s.role.creates ∧ s.drop = t := by
  simp [teardown, and_assoc]

namespace Run

variable {σ : Type}

/-! ## Induction along a run -/

/-- What one statement keeps, as long as none has failed, all of them keep. -/
theorem executeAll_induct {store : Store σ} {check : Registered}
    {motive : Except RunError Nat → σ → List Issue → Prop} {statements : List Statement}
    (sends : ∀ s ∈ statements, ∀ count state issues, motive (.ok count) state issues →
      motive (execute store check s count state).1 (execute store check s count state).2.1
        (issues ++ (execute store check s count state).2.2))
    (count : Nat) (progress : Progress σ)
    (start : motive (.ok count) progress.store progress.issues) :
    motive (executeAll store check statements count progress).1
      (executeAll store check statements count progress).2.store
      (executeAll store check statements count progress).2.issues := by
  induction statements generalizing count progress with
  | nil => exact start
  | cons s rest ih =>
      have step := sends s List.mem_cons_self _ _ _ start
      rw [executeAll]
      generalize execute store check s count progress.store = result at step
      obtain ⟨outcome, after, issues⟩ := result
      cases outcome with
      | error e => exact step
      | ok count => exact ih (fun t member => sends t (List.mem_cons_of_mem s member)) _ _ step

/-- The steps of a run keep a property of its outcome so far, the state of the store and the
issues delivered.  What becomes of a statement that drops a relation counts only while
nothing else has failed, and what it counts is not looked at. -/
structure Keeps (store : Store σ) (check : Registered)
    (motive : Except RunError Nat → σ → List Issue → Prop) : Prop where
  missing : ∀ state issues, motive (.ok 0) state issues →
    motive (.error (.missingOutput check.pipeline.id)) state issues
  sends : ∀ s ∈ check.pipeline.statements, ∀ count state issues,
    motive (.ok count) state issues →
      motive (execute store check s count state).1 (execute store check s count state).2.1
        (issues ++ (execute store check s count state).2.2)
  drops : ∀ s ∈ check.pipeline.teardown, ∀ outcome apart state issues,
    motive outcome state issues →
      motive (outcome >>= fun count => (fun _ => count) <$> (execute store check s apart state).1)
        (execute store check s apart state).2.1
        (issues ++ (execute store check s apart state).2.2)

namespace Keeps

variable {store : Store σ} {check : Registered}
  {motive : Except RunError Nat → σ → List Issue → Prop} (keeps : Keeps store check motive)

include keeps

theorem runStatements (progress : Progress σ)
    (start : motive (.ok 0) progress.store progress.issues) :
    motive (Run.runStatements store check progress).1
      (Run.runStatements store check progress).2.store
      (Run.runStatements store check progress).2.issues := by
  rw [Run.runStatements]
  split
  · exact executeAll_induct keeps.sends 0 progress start
  · exact keeps.missing _ _ start

theorem runPipeline (runner : Runner) (progress : Progress σ)
    (start : motive (.ok 0) progress.store progress.issues) :
    motive (runner.runPipeline store check progress).1
      (runner.runPipeline store check progress).2.store
      (runner.runPipeline store check progress).2.issues := by
  have ran := keeps.runStatements progress start
  rw [Runner.runPipeline]
  generalize Run.runStatements store check progress = first at ran
  obtain ⟨outcome, progress⟩ := first
  dsimp only at ran ⊢
  split
  · -- The outcome of the statements is settled when the teardown begins: the induction is on
    -- the outcome of dropping, with this one in front of it.
    have unchanged : ∀ apart : Nat,
        (outcome >>= fun count => (fun _ => count) <$> (.ok apart : Except RunError Nat)) =
          outcome := fun _ => bind_pure outcome
    have dropped : motive
        (outcome >>= fun count =>
          (fun _ => count) <$> (executeAll store check check.pipeline.teardown 0 progress).1)
        (executeAll store check check.pipeline.teardown 0 progress).2.store
        (executeAll store check check.pipeline.teardown 0 progress).2.issues := by
      apply executeAll_induct (motive := fun dropped state issues =>
        motive (outcome >>= fun count => (fun _ => count) <$> dropped) state issues)
      · intro s member apart state issues
        rw [unchanged]
        exact keeps.drops s member outcome apart state issues
      · rwa [unchanged]
    cases outcome <;> exact dropped
  · exact ran

/-- **What the steps of a run keep holds at its end.** -/
theorem runKnown (runner : Runner) (state : σ) (start : motive (.ok 0) state []) :
    motive (runner.runKnown store check state).outcome
      (runner.runKnown store check state).progress.store
      (runner.runKnown store check state).progress.issues := by
  rw [Runner.runKnown]
  dsimp only
  generalize Log.Event.entry _ _ = started
  have ran := keeps.runPipeline runner { store := state, log := [started] } start
  generalize runner.runPipeline store check _ = result at ran
  obtain ⟨outcome, progress⟩ := result
  cases outcome <;> exact ran

end Keeps

/-! ## The counter -/

/-- The counter of a query goes up by one with each row that is taken. -/
theorem Reply.count_of_drain {α : Type} {decode : Row → Except RunError α} {reply : Reply σ}
    {count total : Nat} (ended : (reply.drain decode count).1 = .ok total) :
    total = count + (reply.drain decode count).2.2.length := by
  induction reply generalizing count with
  | done outcome after =>
      obtain ⟨-, -, same⟩ := map_eq_ok_iff.1 ended
      exact same.symm
  | row columns next ih =>
      rw [drain] at ended ⊢
      cases decoded : decode columns with
      | ok a =>
          rw [decoded] at ended
          have later := ih (.ok ()) ended
          rw [later, List.length_cons]
          omega
      | error e =>
          rw [decoded] at ended
          exact ih (.error e) ended

theorem count_of_execute {store : Store σ} {check : Registered} {s : Statement}
    {count total : Nat} {state : σ}
    (ended : (execute store check s count state).1 = .ok total) :
    total = count + (execute store check s count state).2.2.length := by
  rw [execute] at ended ⊢
  by_cases output : s.role = .output
  · rw [if_pos output] at ended ⊢
    exact Reply.count_of_drain ended
  · rw [if_neg output] at ended ⊢
    obtain ⟨-, -, same⟩ := map_eq_ok_iff.1 ended
    exact same.symm

/-- A statement that drops a relation wants no rows. -/
theorem issues_of_drop {store : Store σ} {check : Registered} {s : Statement} {count : Nat}
    {state : σ} (drops : s ∈ check.pipeline.teardown) :
    (execute store check s count state).2.2 = [] := by
  obtain ⟨created, -, -, rfl⟩ := Pipeline.mem_teardown.1 drops
  rfl

theorem keeps_count (store : Store σ) (check : Registered) :
    Keeps store check fun outcome _ issues =>
      ∀ count, outcome = .ok count → count = issues.length where
  missing := by
    intro state issues counted count ended
    cases ended
  sends := by
    intro s stated count state issues counted total ended
    rw [List.length_append, ← counted count rfl]
    exact count_of_execute ended
  drops := by
    intro s dropped outcome apart state issues counted total ended
    obtain ⟨count, before, after⟩ := bind_eq_ok_iff.1 ended
    obtain ⟨-, -, rfl⟩ := map_eq_ok_iff.1 after
    rw [issues_of_drop dropped, List.append_nil]
    exact counted count before

/-- **A run that comes to its end reports the number of issues it delivered.** -/
theorem Runner.count_of_runKnown {runner : Runner} {store : Store σ} {check : Registered}
    {state : σ} {count : Nat} (ended : (runner.runKnown store check state).outcome = .ok count) :
    count = (runner.runKnown store check state).progress.issues.length := by
  have start : ∀ count, (.ok 0 : Except RunError Nat) = .ok count →
      count = ([] : List Issue).length := by
    intro count none
    cases none
    rfl
  exact (keeps_count store check).runKnown runner state start count ended

end Run

end MapAudit
