import MapAudit.Proofs.Cleanup
import MapAudit.Proofs.Exchange

/-!
# What the teardown drops

The teardown of a pipeline drops every relation that the pipeline creates, also one
that a run has not come to create, because its creation was refused or nothing was sent.
What holds of every run is that a relation which is dropped was created in the run,
unless the statements stopped at its creation or before (`CreatedUnlessStopped`).
-/

namespace MapAudit

set_option autoImplicit false

open Sql (effect)

/-- The text of a statement does what its role says. -/
structure Statement.Faithful (s : Statement) : Prop where
  named : Sql.isIdentifier s.relation
  acts : ∃ reads, effect s.sql =
    if s.role.creates then .create s.relation reads else .query reads

theorem Check.faithful_of_compile {c : Check} {p : Pipeline}
    (made : ∀ r ∈ c.requests, r.Made) (compiled : c.compile = .ok p) :
    ∀ s ∈ p.statements, s.Faithful := by
  intro s member
  obtain ⟨before, after, split⟩ := List.append_of_mem member
  have fits : s.FitsAfter before := fitsAfter_of_split made compiled split
  obtain ⟨reads, acts, -⟩ := fits.acts
  refine ⟨fits.named, reads, acts.trans ?_⟩
  rw [fits.creates]
  by_cases output : s.role = .output <;> simp [output]

namespace Run

/-! ## Where the statements of a pipeline stop -/

/-- The statements of a pipeline stopped among the `first` of them: one of these failed,
or none was sent because the pipeline has no output statement. -/
inductive Stopped (p : Pipeline) (first : List Statement) : List Exchange → Prop where
  | missing (absent : p.output? = none) : Stopped p first []
  | failed (done : List Statement) (e : RunError) {s : Statement} {later : List Statement}
      (split : first = done ++ s :: later) :
      Stopped p first (done.map succeeded ++ [⟨s.call, .error e⟩])

/-- The first statements of a pipeline have all succeeded, or it stopped among them. -/
theorem SentOf.succeeded_or_stopped {p : Pipeline} {sent : List Exchange}
    {failure : Option RunError} (order : SentOf p sent failure) {first rest : List Statement}
    (split : p.statements = first ++ rest) :
    first.map succeeded <+: sent ∨ Stopped p first sent := by
  unfold SentOf at order
  by_cases output : p.statements.getLast?.map (·.role) = some .output
  · rw [if_pos output] at order
    cases order with
    | all => exact Or.inl (by simp [split])
    | upTo done e place =>
        rename_i s later
        -- The failed statement is among the first, or all of these stand before it.
        rcases List.append_eq_append_iff.1 (split.symm.trans place) with
          ⟨more, rfl, -⟩ | ⟨more, rfl, same⟩
        · refine Or.inl ?_
          rw [List.map_append, List.append_assoc]
          exact List.prefix_append _ _
        · cases more with
          | nil => exact Or.inl (by simp)
          | cons t more =>
              obtain ⟨rfl, -⟩ := List.cons.inj same
              exact Or.inr (.failed done e rfl)
  · rw [if_neg output] at order
    obtain ⟨rfl, -⟩ := order
    refine Or.inr (.missing ?_)
    simpa using mt (output?_isSome_iff p).1 output

theorem Sent.call_mem {statements : List Statement} {sent : List Exchange}
    {failure : Option RunError} (order : Sent statements sent failure) {x : Exchange}
    (member : x ∈ sent) : ∃ s ∈ statements, x.call = s.call := by
  cases order with
  | all =>
      obtain ⟨s, stated, rfl⟩ := List.mem_map.1 member
      exact ⟨s, stated, rfl⟩
  | upTo done e split =>
      rename_i s later
      rcases List.mem_append.1 member with earlier | last
      · obtain ⟨t, stated, rfl⟩ := List.mem_map.1 earlier
        exact ⟨t, by simp [split, stated], rfl⟩
      · obtain rfl := List.mem_singleton.1 last
        exact ⟨s, by simp [split], rfl⟩

theorem SentOf.call_mem {p : Pipeline} {sent : List Exchange} {failure : Option RunError}
    (order : SentOf p sent failure) {x : Exchange} (member : x ∈ sent) :
    ∃ s ∈ p.statements, x.call = s.call := by
  unfold SentOf at order
  split at order
  · exact Sent.call_mem order member
  · simp [order.1] at member

/-! ## Drops -/

/-- A statement that creates a relation has succeeded, or the pipeline stopped at it or
before. -/
def CreatedUnlessStopped (p : Pipeline) (sent : List Exchange) (s : Statement) : Prop :=
  s.role.creates ∧ ∃ before after, p.statements = before ++ s :: after ∧
    ((before ++ [s]).map succeeded <+: sent ∨ Stopped p (before ++ [s]) sent)

/-- Every statement of the teardown drops what a statement of the pipeline creates. -/
theorem createdUnlessStopped_of_dropped {p : Pipeline} {sent dropped : List Exchange}
    {failure undropped : Option RunError} (order : SentOf p sent failure)
    (teardown : Sent p.teardown dropped undropped) {x : Exchange} (member : x ∈ dropped) :
    ∃ s, CreatedUnlessStopped p sent s ∧ x.call = s.drop.call := by
  obtain ⟨t, listed, same⟩ := teardown.call_mem member
  obtain ⟨s, stated, creates, rfl⟩ := Pipeline.mem_teardown.1 listed
  obtain ⟨before, after, split⟩ := List.append_of_mem stated
  exact ⟨s, ⟨creates, before, after, split,
    order.succeeded_or_stopped (by rw [split, List.append_cons])⟩, same⟩

section Effects

variable {p : Pipeline} {sent dropped : List Exchange} {failure undropped : Option RunError}
  {name : String}

/-- The statements of a pipeline create and ask; they do not drop. -/
theorem SentOf.effect_ne_drop (faithful : ∀ s ∈ p.statements, s.Faithful)
    (order : SentOf p sent failure) {x : Exchange} (member : x ∈ sent) :
    effect x.call.sql ≠ .drop name := by
  obtain ⟨s, stated, call⟩ := order.call_mem member
  obtain ⟨reads, acts⟩ := (faithful s stated).acts
  rw [call, show s.call.sql = s.sql from rfl, acts]
  split <;> exact nofun

/-- What follows all of a list stands behind it. -/
theorem prefix_of_not_mem {α : Type} {xs ys before after : List α} {x : α}
    (split : xs ++ ys = before ++ x :: after) (outside : x ∉ xs) : xs <+: before := by
  rcases List.append_eq_append_iff.1 split with ⟨more, rfl, -⟩ | ⟨more, rfl, same⟩
  · exact List.prefix_append _ _
  · cases more with
    | nil => simp
    | cons y more =>
        obtain ⟨rfl, -⟩ := List.cons.inj same
        exact absurd (by simp) outside

/-- Where the statements do what their roles say, a relation that is dropped was created
before, unless the pipeline stopped at its creation or before. -/
theorem created_of_drop (faithful : ∀ s ∈ p.statements, s.Faithful)
    (order : SentOf p sent failure) (teardown : Sent p.teardown dropped undropped)
    {before after : List Exchange} {x : Exchange} (split : sent ++ dropped = before ++ x :: after)
    (drop : effect x.call.sql = .drop name) :
    (∃ y ∈ before, y.outcome = .ok () ∧ ∃ reads, effect y.call.sql = .create name reads) ∨
      ∃ first s rest, p.statements = first ++ s :: rest ∧ s.Creates name ∧
        Stopped p (first ++ [s]) sent := by
  have unsent : x ∉ sent := fun member => order.effect_ne_drop faithful member drop
  have member : x ∈ dropped := by
    have listed : x ∈ sent ++ dropped := by simp [split]
    exact (List.mem_append.1 listed).resolve_left unsent
  obtain ⟨s, ⟨creates, first, rest, stated, made⟩, call⟩ :=
    createdUnlessStopped_of_dropped order teardown member
  have faithful : s.Faithful := faithful s (by simp [stated])
  have named : s.relation = name := by
    rw [call, show s.drop.call.sql = s.drop.sql from rfl,
      Statement.effect_drop faithful.named] at drop
    exact Sql.Effect.drop.inj drop
  rcases made with done | stopped
  · have earlier : succeeded s ∈ before :=
      (done.trans (prefix_of_not_mem split unsent)).subset (by simp)
    obtain ⟨reads, acts⟩ := faithful.acts
    rw [if_pos creates, named] at acts
    exact Or.inl ⟨succeeded s, earlier, rfl, reads, acts⟩
  · exact Or.inr ⟨first, s, rest, stated, ⟨creates, named⟩, stopped⟩

end Effects

namespace Runner

variable {runner : Runner} {σ : Type}

/-- **What is dropped was created, unless the run stopped before.**  Whatever the
teardown drops is the relation of a statement of the pipeline that creates it.  This
statement has succeeded in the same run, unless it or an earlier one failed, or nothing
was sent because there is no output statement.  Where the statements do what their roles
say, this is so of every drop of the run. -/
theorem runCheck_drops (drops : runner.dropIntermediates) {id : String} {check : Registered}
    (known : runner.find? id = some check) (store : Store σ) (state : σ) :
    ∃ sent dropped failure undropped,
      runner.runCheck store.observed id (state, []) =
        (runner.runCheck store id state).observed (sent ++ dropped) ∧
      SentOf check.pipeline sent failure ∧ Sent check.pipeline.teardown dropped undropped ∧
      (∀ x ∈ dropped, ∃ s, CreatedUnlessStopped check.pipeline sent s ∧
        x.call = ⟨"DROP TABLE IF EXISTS " ++ s.relation ++ ";", false⟩) ∧
      ((∀ s ∈ check.pipeline.statements, s.Faithful) →
        ∀ before x after, sent ++ dropped = before ++ x :: after →
          ∀ name, effect x.call.sql = .drop name →
            (∃ y ∈ before, y.outcome = .ok () ∧ ∃ reads, effect y.call.sql = .create name reads) ∨
            ∃ first s rest, check.pipeline.statements = first ++ s :: rest ∧ s.Creates name ∧
              Stopped check.pipeline (first ++ [s]) sent) := by
  obtain ⟨sent, dropped, failure, undropped, order, teardown, -, same⟩ :=
    runner.runKnown_observed store check state []
  rw [SentToDrop, if_pos drops] at teardown
  refine ⟨sent, dropped, failure, undropped, ?_, order, teardown, ?_, ?_⟩
  · rw [runCheck, runCheck, known]
    exact same
  · intro x member
    exact createdUnlessStopped_of_dropped order teardown member
  · intro faithful before x after split name drop
    exact created_of_drop faithful order teardown split drop

namespace Example

/-- A check that creates two relations. -/
def bordered : Registered :=
  ⟨Check.Example.borderedPipeline, 0⟩

def lone : Runner where
  checks := [bordered]

/-- The statement that creates the polygons of relations. -/
def polygons : Statement :=
  ⟨"relations_polygon", .setup, Builtin.relationsPolygonSql⟩

/-- The statement that creates what lies inside them. -/
def inside : Statement :=
  ⟨"inside", .materialize,
    filterSql (Check.Example.nodeFilter "inside" "nodes" (.intersects "relations_polygon"))
      (.of (.intersects "relations_polygon"))⟩

/-- A store that ends its calls as a script says. -/
def scripted : Store (List (Except RunError Unit)) where
  run script _ := (script.headD (.ok ()), script.tail)
  query script _ := .done (script.headD (.ok ())) script.tail

/-- The second call is refused. -/
def refusal : List (Except RunError Unit) :=
  [.ok (), .error (.store "disk full")]

theorem lone_exchanges :
    (lone.runCheck scripted.observed "11" (refusal, [])).progress.store.2 =
      [succeeded polygons, ⟨inside.call, .error (.store "disk full")⟩] ++
        succeeded inside.drop :: [succeeded polygons.drop] := by
  rfl

theorem bordered_faithful : ∀ s ∈ bordered.pipeline.statements, s.Faithful :=
  Check.faithful_of_compile bordered_made Check.Example.bordered_compile

end Example

theorem bordered_drops :
    Example.lone.dropIntermediates = true ∧ Example.lone.find? "11" = some Example.bordered ∧
      (∀ s ∈ Example.bordered.pipeline.statements, s.Faithful) ∧
      ∃ sent dropped failure undropped,
        Example.lone.runCheck Example.scripted.observed "11" (Example.refusal, []) =
          (Example.lone.runCheck Example.scripted "11" Example.refusal).observed (sent ++ dropped) ∧
        SentOf Example.bordered.pipeline sent failure ∧
        Sent Example.bordered.pipeline.teardown dropped undropped ∧
        (∀ x ∈ dropped, ∃ s, CreatedUnlessStopped Example.bordered.pipeline sent s ∧
          x.call = ⟨"DROP TABLE IF EXISTS " ++ s.relation ++ ";", false⟩) ∧
        ((∀ s ∈ Example.bordered.pipeline.statements, s.Faithful) →
          ∀ before x after, sent ++ dropped = before ++ x :: after →
            ∀ name, effect x.call.sql = .drop name →
              (∃ y ∈ before, y.outcome = .ok () ∧
                ∃ reads, effect y.call.sql = .create name reads) ∨
              ∃ first s rest, Example.bordered.pipeline.statements = first ++ s :: rest ∧
                s.Creates name ∧ Stopped Example.bordered.pipeline (first ++ [s]) sent) :=
  ⟨rfl, rfl, Example.bordered_faithful, runCheck_drops rfl rfl Example.scripted Example.refusal⟩

/-- A creation that is refused is followed by a drop of what was not created. -/
theorem refused_creation_is_dropped :
    Example.lone.dropIntermediates = true ∧ Example.lone.find? "11" = some Example.bordered ∧
      Compiled Example.bordered.pipeline ∧
      ¬ ∀ before x after,
        (Example.lone.runCheck Example.scripted.observed "11" (Example.refusal, [])).progress.store.2 =
          before ++ x :: after →
        ∀ name, effect x.call.sql = .drop name →
          ∃ y ∈ before, y.outcome = .ok () ∧ ∃ reads, effect y.call.sql = .create name reads := by
  refine ⟨rfl, rfl, ⟨_, Example.bordered_made, Check.Example.bordered_compile⟩, fun claim => ?_⟩
  obtain ⟨y, earlier, fine, reads, creates⟩ := claim _ _ _ Example.lone_exchanges "inside"
    (Statement.effect_drop (by decide))
  rcases List.mem_cons.1 earlier with rfl | earlier
  · have other := (Sql.Effect.create.inj (effect_relationsPolygonSql.symm.trans creates)).1
    exact absurd other (by decide)
  · obtain rfl := List.mem_singleton.1 earlier
    cases fine

end Runner

end Run

end MapAudit
