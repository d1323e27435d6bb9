import MapAudit.Proofs.Availability
import MapAudit.Proofs.Effect
import MapAudit.Run.Runner
import Mathlib.Data.Finset.Basic
import Mathlib.Data.Finset.Lattice.Lemmas

/-!
# Runs leave no relation behind

`keeping` is a store that keeps the set of temporary relations.  It refuses to create
a relation that exists and to read one that does not, and whatever else goes wrong
is up to a `Whim`: it may fail any creation or query, and hand over any rows.

A run of compiled checks from no relations ends every check with none, and nothing
is ever refused, whatever the whim.  Before each statement of a pipeline exactly what
the statements before it created is held (`execute_keeps`), and the teardown drops all
of that (`executeAll_drop`), also after a failure.
-/

namespace MapAudit

set_option autoImplicit false

open Sql (Effect effect)

/-! ## What the statements of a pipeline do -/

/-- The tables that the polygons of relations are assembled from. -/
def Builtin.memberTables : List String := ["relations", "relation_members", "ways"]

def createdBy (statements : List Statement) : Finset String :=
  ((statements.filter (·.role.creates)).map (·.relation)).toFinset

/-- A relation is created by some statements if one of them creates it. -/
theorem mem_createdBy {statements : List Statement} {name : String} :
    name ∈ createdBy statements ↔ ∃ t ∈ statements, t.Creates name := by
  simp [createdBy, Statement.Creates, and_assoc]

theorem createdBy_concat (statements : List Statement) (s : Statement) :
    createdBy (statements ++ [s]) =
      if s.role.creates then insert s.relation (createdBy statements)
      else createdBy statements := by
  rw [createdBy, List.filter_append, List.map_append, List.toFinset_append]
  by_cases creates : s.role.creates
  · simp [creates, createdBy]
  · simp [creates, createdBy]

theorem createdBy_subset (statements more : List Statement) :
    createdBy statements ⊆ createdBy (statements ++ more) := by
  intro name created
  obtain ⟨t, member, creates⟩ := mem_createdBy.1 created
  exact mem_createdBy.2 ⟨t, List.mem_append_left _ member, creates⟩

/-- The statement asks, or creates its relation; and it reads only what is stored or
created by the statements before it. -/
structure Statement.FitsAfter (before : List Statement) (s : Statement) : Prop where
  named : Sql.isIdentifier s.relation
  fresh : s.relation ∉ createdBy before
  acts : ∃ reads, effect s.sql =
      (if s.role = .output then .query reads else .create s.relation reads) ∧
    ∀ name ∈ reads, name ∈ Builtin.storedNames ++ Builtin.memberTables ∨ name ∈ createdBy before
  creates : s.role.creates = !decide (s.role = .output)

namespace Check

variable {c : Check} {p : Pipeline}

theorem fitsAfter_of_split (made : ∀ r ∈ c.requests, r.Made) (compiled : c.compile = .ok p)
    {before after : List Statement} {s : Statement} (split : p.statements = before ++ s :: after) :
    s.FitsAfter before := by
  have member : s ∈ p.statements := by simp [split]
  have fresh : s.relation ∉ createdBy before := by
    intro created
    obtain ⟨t, earlier, -, same⟩ := mem_createdBy.1 created
    have distinct := nodup_relations compiled
    rw [split, List.map_append, List.map_cons, List.nodup_append] at distinct
    exact distinct.2.2 _ (List.mem_map_of_mem earlier) _ List.mem_cons_self same
  rcases statement_cases compiled member with rfl | ⟨r, request, own, stated⟩
  · refine ⟨by decide, fresh, ⟨Builtin.memberTables, effect_relationsPolygonSql, ?_⟩, rfl⟩
    intro name table
    exact Or.inl (List.mem_append_right _ table)
  · obtain ⟨planned, written, -, -⟩ := compile_eq_ok_iff.1 compiled
    obtain ⟨named, role, text⟩ := Request.statement_eq_ok_iff.1 stated
    have inPlan : r.name ∈ p.plan.names :=
      own ▸ (sublist_of_statementsOf written).subset (List.mem_map_of_mem member)
    have legible : r.Legible := legible_of_planned made planned request inPlan
    refine ⟨named ▸ legible.name, fresh, ⟨r.dependencies, ?_, ?_⟩, ?_⟩
    · rw [legible.effect_sql text, role, named]
      by_cases sink : r.name = c.sink.name <;> simp [sink]
    · intro name depends
      rcases available_of_split compiled split request own depends with stored | created
      · exact Or.inl (List.mem_append_left _ stored)
      · exact Or.inr (mem_createdBy.2 created)
    · rw [role]
      split <;> rfl

end Check

namespace Run

/-! ## A store that keeps relations -/

inductive Refusal where
  | missing (name : String)
  | taken (name : String)
  deriving DecidableEq, Repr

def Refusal.message : Refusal → String
  | .missing name => "relation " ++ name ++ " does not exist"
  | .taken name => "relation " ++ name ++ " already exists"

/-- The state of a store that keeps temporary relations. -/
structure Tables (τ : Type) where
  held : Finset String
  /-- What was refused so far. -/
  refused : List Refusal
  /-- What the whims of the store depend on. -/
  mood : τ

/-- What a store does of its own accord: fail the creation of a relation, and answer
queries in any way. -/
structure Whim (τ : Type) where
  create : τ → String → Option RunError × τ
  query : τ → String → Reply τ

variable {τ : Type}

namespace Tables

/-- The first relation that cannot be read. -/
def missing? (stored : List String) (tables : Tables τ) (reads : List String) : Option Refusal :=
  (reads.find? fun name => name ∉ stored ∧ name ∉ tables.held).map .missing

def refusal? (stored : List String) (tables : Tables τ) : Effect → Option Refusal
  | .create name reads =>
      if name ∈ tables.held then some (.taken name) else tables.missing? stored reads
  | .drop _ => none
  | .query reads => tables.missing? stored reads

def refuse (tables : Tables τ) (refusal : Refusal) : Except RunError Unit × Tables τ :=
  (.error (.store refusal.message), { tables with refused := tables.refused ++ [refusal] })

def perform (whim : Whim τ) (tables : Tables τ) (sql : String) : Except RunError Unit × Tables τ :=
  match effect sql with
  | .create name _ =>
      match whim.create tables.mood sql with
      | (some e, mood) => (.error e, { tables with mood })
      | (none, mood) => (.ok (), { tables with held := insert name tables.held, mood })
  | .drop name => (.ok (), { tables with held := tables.held.erase name })
  | .query _ => (.ok (), tables)

end Tables

/-- The store that keeps temporary relations besides those it has `stored`. -/
def keeping (stored : List String) (whim : Whim τ) : Store (Tables τ) where
  run tables sql :=
    match tables.refusal? stored (effect sql) with
    | some refusal => tables.refuse refusal
    | none => tables.perform whim sql
  query tables sql :=
    match tables.refusal? stored (effect sql), effect sql with
    | some refusal, _ => .done (tables.refuse refusal).1 (tables.refuse refusal).2
    | none, .query _ => (whim.query tables.mood sql).mapState fun mood => { tables with mood }
    | none, _ => .done (tables.perform whim sql).1 (tables.perform whim sql).2

section Steps

variable {stored : List String} (whim : Whim τ) {tables : Tables τ}

theorem missing?_eq_none {reads : List String}
    (there : ∀ name ∈ reads, name ∈ stored ∨ name ∈ tables.held) :
    tables.missing? stored reads = none := by
  rw [Tables.missing?, Option.map_eq_none_iff, List.find?_eq_none]
  intro name member absent
  rw [decide_eq_true_eq] at absent
  exact (there name member).elim absent.1 absent.2

/-- Draining a reply ends in the state its end was changed to. -/
theorem drain_mapState {σ α : Type} (f : τ → σ) (decode : Row → Except RunError α)
    (reply : Reply τ) (count : Nat) :
    ((reply.mapState f).drain decode count).2.1 = f (reply.drain decode count).2.1 := by
  induction reply generalizing count with
  | done outcome after => rfl
  | row columns next ih =>
      rw [Reply.mapState, Reply.drain, Reply.drain]
      cases decode columns with
      | ok a => exact ih (.ok ()) _
      | error e => exact ih (.error e) _

/-- **One statement of a pipeline**: it is not refused, and afterwards its relation is
held as well, or it has failed and nothing has changed. -/
theorem execute_keeps (full : Builtin.storedNames ++ Builtin.memberTables ⊆ stored)
    {before : List Statement} {s : Statement} (fits : s.FitsAfter before) (check : Registered)
    (count : Nat) (held : tables.held = createdBy before) :
    let result := execute (keeping stored whim) check s count tables
    result.2.1.refused = tables.refused ∧
      (result.2.1.held = createdBy (before ++ [s]) ∨
        (∀ total, result.1 ≠ .ok total) ∧ result.2.1.held = createdBy before) := by
  obtain ⟨reads, acts, there⟩ := fits.acts
  have found : tables.missing? stored reads = none := by
    apply missing?_eq_none
    intro name member
    exact (there name member).imp (fun table => full table) (fun created => held ▸ created)
  rw [createdBy_concat, fits.creates]
  by_cases output : s.role = .output
  · rw [if_pos output] at acts
    have answer : (keeping stored whim).query tables s.sql =
        (whim.query tables.mood s.sql).mapState fun mood => { tables with mood } := by
      simp [keeping, acts, Tables.refusal?, found]
    have state : (execute (keeping stored whim) check s count tables).2.1 = { tables with
        mood := ((whim.query tables.mood s.sql).drain (issueOf check) count).2.1 } := by
      rw [execute, if_pos output, answer, drain_mapState]
    dsimp only
    rw [state]
    exact ⟨rfl, Or.inl (by simpa [output] using held)⟩
  · rw [if_neg output] at acts
    have fresh : s.relation ∉ tables.held := held ▸ fits.fresh
    have ran : (keeping stored whim).run tables s.sql = tables.perform whim s.sql := by
      simp [keeping, acts, Tables.refusal?, found, fresh]
    have result : execute (keeping stored whim) check s count tables =
        ((fun _ => count) <$> (tables.perform whim s.sql).1, (tables.perform whim s.sql).2,
          []) := by
      rw [execute, if_neg output, ran]
    dsimp only
    rw [result, Tables.perform, acts]
    dsimp only
    -- The whim decides whether the relation is created.
    rcases whim.create tables.mood s.sql with ⟨failure | e, mood⟩
    · exact ⟨rfl, Or.inl (by simp [output, held])⟩
    · exact ⟨rfl, Or.inr ⟨fun _ => nofun, held⟩⟩

/-- **The statements of a pipeline, from some place on**: nothing is refused, and no
relation is held that the pipeline does not create. -/
theorem executeAll_keeps (full : Builtin.storedNames ++ Builtin.memberTables ⊆ stored)
    {statements : List Statement}
    (fit : ∀ before s after, statements = before ++ s :: after → s.FitsAfter before)
    (check : Registered) (before rest : List Statement) (split : statements = before ++ rest)
    (count : Nat) (progress : Progress (Tables τ))
    (held : progress.store.held = createdBy before) :
    let after := (executeAll (keeping stored whim) check rest count progress).2.store
    after.refused = progress.store.refused ∧ after.held ⊆ createdBy statements := by
  induction rest generalizing before count progress with
  | nil =>
      rw [List.append_nil] at split
      exact ⟨rfl, by rw [split, executeAll, held]⟩
  | cons s rest ih =>
      have fits : s.FitsAfter before := fit before s rest split
      obtain ⟨refused, step⟩ := execute_keeps whim full fits check count held
      have later : statements = before ++ [s] ++ rest := by rw [split, List.append_cons]
      rw [executeAll]
      generalize execute (keeping stored whim) check s count progress.store = result
        at refused step
      obtain ⟨outcome, after, issues⟩ := result
      dsimp only at refused step ⊢
      cases outcome with
      | ok total =>
          have held : after.held = createdBy (before ++ [s]) :=
            step.resolve_right fun failed => failed.1 total rfl
          rw [← refused]
          exact ih (before ++ [s]) later total _ held
      | error e =>
          refine ⟨refused, ?_⟩
          rcases step with created | ⟨-, same⟩
          · rw [created, later]
            exact createdBy_subset (before ++ [s]) rest
          · rw [same, split]
            exact createdBy_subset before (s :: rest)

/-- Drops are never refused, and remove every relation they name. -/
theorem executeAll_drop (stored : List String) (check : Registered) {created : List Statement}
    (named : ∀ s ∈ created, Sql.isIdentifier s.relation) (count : Nat)
    (progress : Progress (Tables τ)) :
    let after :=
      (executeAll (keeping stored whim) check (created.map Statement.drop) count progress).2.store
    after.refused = progress.store.refused ∧
      after.held = progress.store.held \ (created.map (·.relation)).toFinset := by
  induction created generalizing count progress with
  | nil => exact ⟨rfl, by simp [executeAll]⟩
  | cons s rest ih =>
      have dropped : (keeping stored whim).run progress.store s.drop.sql =
          (.ok (), { progress.store with held := progress.store.held.erase s.relation }) := by
        have acts : effect s.drop.sql = .drop s.relation :=
          s.effect_drop (named s List.mem_cons_self)
        simp [keeping, acts, Tables.refusal?, Tables.perform]
      have result : execute (keeping stored whim) check s.drop count progress.store =
          (.ok count, { progress.store with held := progress.store.held.erase s.relation }, []) := by
        rw [execute, if_neg (by simp [Statement.drop]), dropped]
        rfl
      rw [List.map_cons, executeAll, result]
      obtain ⟨refused, held⟩ := ih (fun t member => named t (List.mem_cons_of_mem _ member)) count _
      refine ⟨refused, held.trans ?_⟩
      rw [List.map_cons, List.toFinset_cons, Finset.sdiff_insert, Finset.erase_sdiff_comm]

end Steps

/-- No relation is held, and nothing was refused. -/
def Tables.Clean (tables : Tables τ) : Prop :=
  tables.held = ∅ ∧ tables.refused = []

/-- The pipeline comes from a check whose requests were accepted. -/
def Compiled (p : Pipeline) : Prop :=
  ∃ c : Check, (∀ r ∈ c.requests, r.Made) ∧ c.compile = .ok p

namespace Runner

variable {runner : Runner} {stored : List String} (whim : Whim τ)

/-- The teardown follows the statements, whatever became of them. -/
theorem runPipeline_progress {σ : Type} (drops : runner.dropIntermediates) (store : Store σ)
    (check : Registered) (progress : Progress σ) :
    (runner.runPipeline store check progress).2 =
      (executeAll store check check.pipeline.teardown 0
        (runStatements store check progress).2).2 := by
  rw [runPipeline]
  dsimp only
  rw [if_pos drops]
  cases (runStatements store check progress).1 <;> rfl

/-- **One run** of a compiled pipeline leaves no relation behind, however it ends. -/
theorem runPipeline_clean (drops : runner.dropIntermediates)
    (full : Builtin.storedNames ++ Builtin.memberTables ⊆ stored) {check : Registered}
    (compiled : Compiled check.pipeline) {progress : Progress (Tables τ)}
    (clean : progress.store.Clean) :
    (runner.runPipeline (keeping stored whim) check progress).2.store.Clean := by
  obtain ⟨c, made, compiled⟩ := compiled
  obtain ⟨empty, unrefused⟩ := clean
  have fit : ∀ before s after, check.pipeline.statements = before ++ s :: after →
      s.FitsAfter before := fun before s after split =>
    Check.fitsAfter_of_split made compiled split
  have named : ∀ s ∈ check.pipeline.statements, Sql.isIdentifier s.relation := by
    intro s member
    obtain ⟨before, after, split⟩ := List.append_of_mem member
    exact (fit before s after split).named
  have ran : (runStatements (keeping stored whim) check progress).2.store.refused = [] ∧
      (runStatements (keeping stored whim) check progress).2.store.held ⊆
        createdBy check.pipeline.statements := by
    rw [runStatements]
    split
    · rw [← unrefused]
      exact executeAll_keeps whim full fit check [] _ rfl 0 progress empty
    · exact ⟨unrefused, by simp [empty]⟩
  have teardown : ∀ s ∈ check.pipeline.statements.reverse.filter (·.role.creates),
      Sql.isIdentifier s.relation := fun s member =>
    named s (List.mem_reverse.1 (List.mem_filter.1 member).1)
  obtain ⟨refused, held⟩ := executeAll_drop whim stored check teardown 0
    (runStatements (keeping stored whim) check progress).2
  rw [runPipeline_progress drops]
  refine ⟨held.trans ?_, refused.trans ran.1⟩
  have reversed : ((check.pipeline.statements.reverse.filter (·.role.creates)).map
      (·.relation)).toFinset = createdBy check.pipeline.statements := by
    rw [List.filter_reverse, List.map_reverse, List.toFinset_reverse]
    rfl
  rw [reversed, Finset.sdiff_eq_empty_iff_subset]
  exact ran.2

theorem runKnown_clean (drops : runner.dropIntermediates)
    (full : Builtin.storedNames ++ Builtin.memberTables ⊆ stored) {check : Registered}
    (compiled : Compiled check.pipeline) {tables : Tables τ} (clean : tables.Clean) :
    (runner.runKnown (keeping stored whim) check tables).progress.store.Clean := by
  rw [runKnown]
  dsimp only
  split
  all_goals exact runPipeline_clean whim drops full compiled clean

theorem runCheck_clean (drops : runner.dropIntermediates)
    (full : Builtin.storedNames ++ Builtin.memberTables ⊆ stored)
    (compiled : ∀ check ∈ runner.checks, Compiled check.pipeline) (id : String)
    {tables : Tables τ} (clean : tables.Clean) :
    (runner.runCheck (keeping stored whim) id tables).progress.store.Clean := by
  rw [runCheck]
  cases found : runner.find? id with
  | none => exact clean
  | some check =>
      exact runKnown_clean whim drops full (compiled check (List.mem_of_find?_eq_some found)) clean

/-- **Run lemma**: checks that run one after another leave no relation behind. -/
theorem runEach_clean (drops : runner.dropIntermediates)
    (full : Builtin.storedNames ++ Builtin.memberTables ⊆ stored)
    (compiled : ∀ check ∈ runner.checks, Compiled check.pipeline) (checks : List Registered)
    {state : Summary × Progress (Tables τ)} (clean : state.2.store.Clean) :
    (runner.runEach (keeping stored whim) checks state).2.store.Clean := by
  induction checks generalizing state with
  | nil => exact clean
  | cons check rest ih =>
      rw [runEach]
      exact ih (runCheck_clean whim drops full compiled check.pipeline.id clean)

theorem runEach_append {σ : Type} (store : Store σ) (done rest : List Registered)
    (state : Summary × Progress σ) :
    runner.runEach store (done ++ rest) state =
      runner.runEach store rest (runner.runEach store done state) := by
  induction done generalizing state with
  | nil => rfl
  | cons check done ih =>
      rw [List.cons_append, runEach, runEach]
      exact ih _

/-- **Every check of a run leaves no relation behind**, and no statement is refused
because a relation is missing or exists already.  Checks may share the names of their
requests and the polygons of relations, and the store may fail whatever it likes to
fail. -/
theorem runAll_leaves_no_relations (drops : runner.dropIntermediates)
    (compiled : ∀ check ∈ runner.checks, Compiled check.pipeline)
    (full : Builtin.storedNames ++ Builtin.memberTables ⊆ stored) (mood : τ)
    (done rest : List Registered) (split : runner.checks = done ++ rest) :
    let between := runner.runEach (keeping stored whim) done ({}, { store := ⟨∅, [], mood⟩ })
    between.2.store.held = ∅ ∧ between.2.store.refused = [] ∧
      runner.runAll (keeping stored whim) ⟨∅, [], mood⟩ =
        runner.runEach (keeping stored whim) rest between := by
  obtain ⟨empty, unrefused⟩ : (runner.runEach (keeping stored whim) done
      ({}, { store := ⟨∅, [], mood⟩ })).2.store.Clean :=
    runEach_clean whim drops full compiled done ⟨rfl, rfl⟩
  refine ⟨empty, unrefused, ?_⟩
  rw [runAll, split, runEach_append]

namespace Example

open Check.Example (hostilePipeline borderedPipeline)

/-- Three pipelines that all create the polygons of relations, one of them twice. -/
def sharing : Runner where
  checks := [⟨hostilePipeline, 0⟩, ⟨borderedPipeline, 1⟩, ⟨hostilePipeline, 2⟩]

/-- Every second creation fails, and every query hands over a row without an id. -/
def fickle : Whim Nat where
  create n _ := (if n % 2 = 1 then some (.store "disk full") else none, n + 1)
  query n _ := .row [none] fun taken => .done taken (n + 1)

theorem bordered_made : ∀ r ∈ Check.Example.bordered.requests, r.Made := by decide

theorem sharing_compiled : ∀ check ∈ sharing.checks, Compiled check.pipeline := by
  have hostile : Compiled hostilePipeline :=
    ⟨_, Check.Example.hostile_made, Check.Example.hostile_compile⟩
  have bordered : Compiled borderedPipeline :=
    ⟨_, bordered_made, Check.Example.bordered_compile⟩
  intro check member
  simp only [sharing, List.mem_cons, List.not_mem_nil, or_false] at member
  rcases member with rfl | rfl | rfl
  · exact hostile
  · exact bordered
  · exact hostile

end Example

theorem sharing_leaves_no_relations :
    Example.sharing.dropIntermediates = true ∧
      (∀ check ∈ Example.sharing.checks, Compiled check.pipeline) ∧
      let store := keeping (Builtin.storedNames ++ Builtin.memberTables) Example.fickle
      let between := Example.sharing.runEach store (Example.sharing.checks.take 1)
        ({}, { store := ⟨∅, [], 0⟩ })
      between.2.store.held = ∅ ∧ between.2.store.refused = [] ∧
        Example.sharing.runAll store ⟨∅, [], 0⟩ =
          Example.sharing.runEach store (Example.sharing.checks.drop 1) between :=
  ⟨rfl, Example.sharing_compiled,
    runAll_leaves_no_relations Example.fickle rfl Example.sharing_compiled (List.Subset.refl _) 0
      _ _ (List.take_append_drop 1 _).symm⟩

end Runner

end Run

end MapAudit
