import MapAudit.Proofs.SingleStatement

/-!
# What a filter selects

`Sql.Query` is the shape of a filter's statement: a source under a name, relations
that are joined with every row, and a condition.  Its conditions are evaluated with
nulls, as a store does, and a record of the source is selected when some choice of
one record from each joined relation makes the condition true.

The statement of a filter is written as such a query, whose condition is true exactly
when the predicate is (`Predicate.eval_expr_iff`).  It selects the records that satisfy
the predicate, provided that no joined relation is empty; where one is, nothing is
selected, even if the predicate does not depend on it.
-/

namespace MapAudit

set_option autoImplicit false

namespace Sql

/-! ## Truth with nulls -/

/-- A truth value of a store, where `none` is null. -/
abbrev Truth := Option Bool

namespace Truth

def conj : Truth → Truth → Truth
  | some false, _ => some false
  | some true, b => b
  | none, some false => some false
  | none, _ => none

def disj : Truth → Truth → Truth
  | some true, _ => some true
  | some false, b => b
  | none, some true => some true
  | none, _ => none

def neg (a : Truth) : Truth := a.map not

theorem conj_eq_true_iff {a b : Truth} : conj a b = some true ↔ a = some true ∧ b = some true := by
  rcases a with _ | _ | _ <;> rcases b with _ | _ | _ <;> decide

theorem disj_eq_true_iff {a b : Truth} : disj a b = some true ↔ a = some true ∨ b = some true := by
  rcases a with _ | _ | _ <;> rcases b with _ | _ | _ <;> decide

theorem neg_eq_true_iff {a : Truth} : neg a = some true ↔ a = some false := by
  rcases a with _ | _ | _ <;> decide

end Truth

/-! ## Records -/

/-- A row of a relation of features whose geometries are `γ`s.  Tags and geometry may
be null, and so may the value of a tag. -/
structure Record (γ : Type) where
  tags : Option (List (String × Option String))
  geom : Option γ
  deriving DecidableEq

namespace Record

variable {γ : Type}

def hasKey (record : Record γ) (key : String) : Truth :=
  record.tags.map fun tags => (tags.lookup key).isSome

/-- The value of a tag, null where there is none. -/
def value? (record : Record γ) (key : String) : Option String :=
  record.tags.bind fun tags => (tags.lookup key).join

def intersects (meets : γ → γ → Bool) (record other : Record γ) : Truth :=
  record.geom.bind fun g => other.geom.map (meets g)

end Record

/-! ## Conditions and queries -/

/-- A condition on rows that are bound to names. -/
inductive Expr where
  | conj (parts : List Expr)
  | disj (parts : List Expr)
  | neg (part : Expr)
  | hasKey (row key : String)
  | equals (row key value : String)
  | differs (row key value : String)
  | intersects (row other : String)

namespace Expr

mutual

def text : Expr → String
  | .conj parts => "(" ++ Text.joinWith (Connective.word .and) (texts parts) ++ ")"
  | .disj parts => "(" ++ Text.joinWith (Connective.word .or) (texts parts) ++ ")"
  | .neg part => "NOT " ++ text part
  | .hasKey row key => row ++ ".tags ? " ++ quote key
  | .equals row key value => row ++ ".tags->" ++ quote key ++ " = " ++ quote value
  | .differs row key value => row ++ ".tags->" ++ quote key ++ " != " ++ quote value
  | .intersects row other => "ST_Intersects(" ++ row ++ ".geom, " ++ other ++ ".geom)"

def texts : List Expr → List String
  | [] => []
  | part :: parts => text part :: texts parts

end

variable {γ : Type} (meets : γ → γ → Bool) (bindings : List (String × Record γ))

mutual

/-- The truth of a condition.  An empty connective, which no store accepts, is read
as its unit. -/
def eval : Expr → Truth
  | .conj parts => evalConj parts
  | .disj parts => evalDisj parts
  | .neg part => (eval part).neg
  | .hasKey row key => (bindings.lookup row).bind fun record => record.hasKey key
  | .equals row key value =>
      ((bindings.lookup row).bind fun record => record.value? key).map fun v => v = value
  | .differs row key value =>
      ((bindings.lookup row).bind fun record => record.value? key).map fun v => v ≠ value
  | .intersects row other =>
      (bindings.lookup row).bind fun record =>
        (bindings.lookup other).bind fun against => record.intersects meets against

def evalConj : List Expr → Truth
  | [] => some true
  | part :: parts => (eval part).conj (evalConj parts)

def evalDisj : List Expr → Truth
  | [] => some false
  | part :: parts => (eval part).disj (evalDisj parts)

end

end Expr

/-- The clauses of a query that select rows. -/
structure Query where
  source : String
  /-- The name the rows of the source are bound to. -/
  row : String
  joins : List String
  condition : Expr

namespace Query

def text (q : Query) : String :=
  "FROM " ++ q.source ++ " AS " ++ q.row ++
    Text.joinWith "" (q.joins.map fun join => "\n    CROSS JOIN " ++ join) ++
    "\nWHERE " ++ q.condition.text

end Query

variable {γ : Type}

/-- Every choice of one record from each of some relations. -/
def crossJoin (content : String → List (Record γ)) : List String → List (List (String × Record γ))
  | [] => [[]]
  | name :: rest =>
      (content name).flatMap fun record => (crossJoin content rest).map ((name, record) :: ·)

/-- The records of the source that a query selects. -/
def Query.selected (meets : γ → γ → Bool) (content : String → List (Record γ)) (q : Query) :
    List (Record γ) :=
  (content q.source).filter fun record =>
    (crossJoin content q.joins).any fun others =>
      q.condition.eval meets ((q.row, record) :: others) = some true

variable {content : String → List (Record γ)}

theorem lookup_of_ne {name first : String} (other : name ≠ first) (record : Record γ)
    (rest : List (String × Record γ)) :
    ((first, record) :: rest).lookup name = rest.lookup name := by
  rw [List.lookup_cons, beq_eq_false_iff_ne.2 other]

/-- Of every joined relation a choice holds a record. -/
theorem exists_of_mem_crossJoin {names : List String} {others : List (String × Record γ)}
    (chosen : others ∈ crossJoin content names) {name : String} (member : name ∈ names) :
    ∃ record ∈ content name, others.lookup name = some record := by
  induction names generalizing others with
  | nil => cases member
  | cons first rest ih =>
      obtain ⟨record, here, chosen⟩ := List.mem_flatMap.1 chosen
      obtain ⟨tail, later, rfl⟩ := List.mem_map.1 chosen
      by_cases same : name = first
      · subst same
        exact ⟨record, here, by simp⟩
      · obtain ⟨other, listed, found⟩ := ih later ((List.mem_cons.1 member).resolve_left same)
        exact ⟨other, listed, (lookup_of_ne same record tail).trans found⟩

/-- Any way to pick a record from each relation is one of the choices. -/
theorem pick_mem_crossJoin {pick : String → Record γ} {names : List String}
    (each : ∀ name ∈ names, pick name ∈ content name) :
    names.map (fun name => (name, pick name)) ∈ crossJoin content names := by
  induction names with
  | nil => simp [crossJoin]
  | cons first rest ih =>
      have later := ih fun name member => each name (List.mem_cons_of_mem _ member)
      exact List.mem_flatMap.2
        ⟨pick first, each first List.mem_cons_self, List.mem_map.2 ⟨_, later, rfl⟩⟩

theorem lookup_pick {pick : String → Record γ} {names : List String} {name : String}
    (member : name ∈ names) :
    (names.map fun name => (name, pick name)).lookup name = some (pick name) := by
  induction names with
  | nil => cases member
  | cons first rest ih =>
      by_cases same : name = first
      · subst same
        simp
      · rw [List.map_cons, lookup_of_ne same]
        exact ih ((List.mem_cons.1 member).resolve_left same)

end Sql

open Sql (Record Expr Query Truth crossJoin)

namespace Predicate

/-! ## Predicates as conditions -/

mutual

/-- The condition that the row bound to a name satisfies the predicate. -/
def expr (row : String) : Predicate → Expr
  | .all parts => .conj (exprs row parts)
  | .any parts => .disj (exprs row parts)
  | .hasTag key => .hasKey row key
  | .lacksTag key => .neg (.hasKey row key)
  | .tagEquals key value => .equals row key value
  | .tagDiffers key value => .differs row key value
  | .intersects target => .intersects row target

def exprs (row : String) : List Predicate → List Expr
  | [] => []
  | part :: parts => expr row part :: exprs row parts

end

mutual

/-- The text of a predicate is that of its condition. -/
theorem text_expr (row : String) : (p : Predicate) → (p.expr row).text = p.condition row
  | .all parts => congrArg (fun texts => "(" ++ Text.joinWith (Connective.word .and) texts ++ ")")
      (texts_exprs row parts)
  | .any parts => congrArg (fun texts => "(" ++ Text.joinWith (Connective.word .or) texts ++ ")")
      (texts_exprs row parts)
  | .hasTag _ => rfl
  | .lacksTag key => by
      change "NOT " ++ (row ++ ".tags ? " ++ Sql.quote key) = _
      rw [← String.append_assoc, ← String.append_assoc]
      rfl
  | .tagEquals _ _ => rfl
  | .tagDiffers _ _ => rfl
  | .intersects _ => rfl

theorem texts_exprs (row : String) : (parts : List Predicate) →
    Expr.texts (exprs row parts) = conditions row parts
  | [] => rfl
  | part :: parts => congrArg₂ List.cons (text_expr row part) (texts_exprs row parts)

end

/-! ## What a predicate means -/

variable {γ : Type} (record : Record γ) (touches : String → Bool)

mutual

/-- Whether a predicate is true of a record whose geometry touches some relations.  A
test of what is null is not true. -/
def holds : Predicate → Bool
  | .all parts => holdsAll parts
  | .any parts => holdsAny parts
  | .hasTag key => record.hasKey key = some true
  | .lacksTag key => record.hasKey key = some false
  | .tagEquals key value => (record.value? key).any (· = value)
  | .tagDiffers key value => (record.value? key).any (· ≠ value)
  | .intersects target => touches target

def holdsAll : List Predicate → Bool
  | [] => true
  | part :: parts => holds part && holdsAll parts

def holdsAny : List Predicate → Bool
  | [] => false
  | part :: parts => holds part || holdsAny parts

end

variable {record touches}

mutual

/-- Touching more relations keeps a predicate true. -/
theorem holds_mono {more : String → Bool} : (p : Predicate) →
    (∀ name ∈ p.mentions, touches name → more name) → p.holds record touches →
    p.holds record more
  | .all parts, grow, met => holdsAll_mono parts grow met
  | .any parts, grow, met => holdsAny_mono parts grow met
  | .hasTag _, _, met => met
  | .lacksTag _, _, met => met
  | .tagEquals _ _, _, met => met
  | .tagDiffers _ _, _, met => met
  | .intersects target, grow, met => grow target (by simp [mentions]) met

theorem holdsAll_mono {more : String → Bool} : (parts : List Predicate) →
    (∀ name ∈ mentionsAll parts, touches name → more name) → holdsAll record touches parts →
    holdsAll record more parts
  | [], _, _ => rfl
  | part :: parts, grow, met => by
      rw [holdsAll, Bool.and_eq_true] at met ⊢
      exact ⟨holds_mono part (fun name member => grow name (List.mem_append_left _ member)) met.1,
        holdsAll_mono parts (fun name member => grow name (List.mem_append_right _ member)) met.2⟩

theorem holdsAny_mono {more : String → Bool} : (parts : List Predicate) →
    (∀ name ∈ mentionsAll parts, touches name → more name) → holdsAny record touches parts →
    holdsAny record more parts
  | [], _, met => met
  | part :: parts, grow, met => by
      rw [holdsAny, Bool.or_eq_true] at met ⊢
      exact met.imp
        (holds_mono part fun name member => grow name (List.mem_append_left _ member))
        (holdsAny_mono parts fun name member => grow name (List.mem_append_right _ member))

end

variable {meets : γ → γ → Bool} {bindings : List (String × Record γ)} {row : String}

mutual

/-- **A condition is true exactly when its predicate is**, of the record that is bound
to its name and the records that are bound to its targets. -/
theorem eval_expr_iff (bound : bindings.lookup row = some record) : (p : Predicate) →
    ((p.expr row).eval meets bindings = some true ↔
      p.holds record fun name =>
        (bindings.lookup name).any fun other => record.intersects meets other = some true)
  | .all parts => evalConj_iff bound parts
  | .any parts => evalDisj_iff bound parts
  | .hasTag key => by
      simp [expr, Expr.eval, holds, bound]
  | .lacksTag key => by
      simp [expr, Expr.eval, holds, bound, Truth.neg_eq_true_iff]
  | .tagEquals key value => by
      cases found : record.value? key <;> simp [expr, Expr.eval, holds, bound, found]
  | .tagDiffers key value => by
      cases found : record.value? key <;> simp [expr, Expr.eval, holds, bound, found]
  | .intersects target => by
      cases found : bindings.lookup target <;> simp [expr, Expr.eval, holds, bound, found]

theorem evalConj_iff (bound : bindings.lookup row = some record) : (parts : List Predicate) →
    (Expr.evalConj meets bindings (exprs row parts) = some true ↔
      holdsAll record (fun name =>
        (bindings.lookup name).any fun other => record.intersects meets other = some true) parts)
  | [] => by simp [exprs, Expr.evalConj, holdsAll]
  | part :: parts => by
      rw [exprs, Expr.evalConj, Truth.conj_eq_true_iff, eval_expr_iff bound part,
        evalConj_iff bound parts, holdsAll, Bool.and_eq_true]

theorem evalDisj_iff (bound : bindings.lookup row = some record) : (parts : List Predicate) →
    (Expr.evalDisj meets bindings (exprs row parts) = some true ↔
      holdsAny record (fun name =>
        (bindings.lookup name).any fun other => record.intersects meets other = some true) parts)
  | [] => by simp [exprs, Expr.evalDisj, holdsAny]
  | part :: parts => by
      rw [exprs, Expr.evalDisj, Truth.disj_eq_true_iff, eval_expr_iff bound part,
        evalDisj_iff bound parts, holdsAny, Bool.or_eq_true]

end

end Predicate

/-! ## The statements of filters -/

/-- Whether the geometry of a record intersects that of some record of a relation. -/
def Sql.Record.touches {γ : Type} (meets : γ → γ → Bool) (content : String → List (Record γ))
    (record : Record γ) (name : String) : Bool :=
  (content name).any fun other => record.intersects meets other = some true

namespace Request

def query (r : Request) (predicate : Predicate) : Query :=
  ⟨r.source, sourceAlias, predicate.targets, predicate.expr sourceAlias⟩

variable {r : Request} {predicate : Predicate}

/-- The last lines of a filter are the text of its query. -/
theorem selection_eq (criterion : Criterion) :
    selection r criterion = (r.query criterion.predicate).text ++ ";\n" := by
  have text : (r.query criterion.predicate).condition.text =
      criterion.predicate.condition sourceAlias := criterion.predicate.text_expr sourceAlias
  rw [selection, criterion.joins_eq, criterion.condition_eq, Query.text, text]
  rfl

theorem exists_sql_eq (filters : r.operation = .filter (.of predicate)) (isSink : Bool) :
    ∃ columns, r.sql isSink = .ok (columns ++ (r.query predicate).text ++ ";\n") := by
  have written := selection_eq (r := r) (.of predicate)
  unfold sql
  rw [filters]
  dsimp only [Criterion.of] at written
  simp only [String.append_assoc, ← written]
  cases isSink with
  | false => exact ⟨_, rfl⟩
  | true => exact ⟨_, rfl⟩

/-- No request that is accepted joins a relation under the name of its source row. -/
theorem Made.sourceAlias_not_mem_targets (made : r.Made)
    (filters : r.operation = .filter (.of predicate)) : sourceAlias ∉ predicate.targets := by
  have accepted : r.operation.Accepted := made.accepted
  rw [filters] at accepted
  exact accepted

variable {γ : Type} {meets : γ → γ → Bool} {content : String → List (Record γ)}
  {record : Record γ}

/-- A record is selected when some choice of records makes the predicate true. -/
theorem mem_selected_iff_exists :
    record ∈ (r.query predicate).selected meets content ↔
      record ∈ content r.source ∧ ∃ others ∈ crossJoin content predicate.targets,
        (predicate.expr sourceAlias).eval meets ((sourceAlias, record) :: others) = some true := by
  simp only [Query.selected, List.mem_filter, List.any_eq_true, decide_eq_true_eq]
  rfl

/-- A relation from which some record is chosen is not empty, and a record that
intersects the chosen one touches the relation. -/
theorem touches_of_chosen {names : List String} {others : List (String × Record γ)}
    (chosen : others ∈ crossJoin content names) {name : String} (member : name ∈ names)
    (met : (others.lookup name).any fun other => record.intersects meets other = some true) :
    record.touches meets content name := by
  obtain ⟨other, listed, found⟩ := Sql.exists_of_mem_crossJoin chosen member
  rw [found] at met
  exact List.any_eq_true.2 ⟨other, listed, met⟩

/-- One choice serves for all targets at once: a record that is touched where there is
one, and any record elsewhere. -/
theorem exists_choice (meets : γ → γ → Bool) (record : Record γ) {names : List String}
    (filled : ∀ name ∈ names, content name ≠ []) :
    ∃ others ∈ crossJoin content names, ∀ name ∈ names, record.touches meets content name →
      (others.lookup name).any fun other => record.intersects meets other = some true := by
  have each : ∀ name, ∃ other, name ∈ names → other ∈ content name ∧
      (record.touches meets content name → record.intersects meets other = some true) := by
    intro name
    by_cases touched : record.touches meets content name
    · obtain ⟨other, listed, met⟩ := List.any_eq_true.1 touched
      exact ⟨other, fun _ => ⟨listed, fun _ => of_decide_eq_true met⟩⟩
    · by_cases member : name ∈ names
      · obtain ⟨other, listed⟩ := List.exists_mem_of_ne_nil _ (filled name member)
        exact ⟨other, fun _ => ⟨listed, fun met => absurd met touched⟩⟩
      · exact ⟨record, fun listed => absurd listed member⟩
  choose pick picked using each
  refine ⟨_, Sql.pick_mem_crossJoin fun name member => (picked name member).1, ?_⟩
  intro name member touched
  rw [Sql.lookup_pick member]
  exact decide_eq_true ((picked name member).2 touched)

/-- **A filter selects the records that satisfy its predicate**, when none of the
relations it is joined with is empty, and no record otherwise; and that query is what
the statement of the filter says behind its columns. -/
theorem mem_selected_iff (made : r.Made) (filters : r.operation = .filter (.of predicate))
    (meets : γ → γ → Bool) (content : String → List (Record γ)) :
    (∀ isSink, ∃ columns, r.sql isSink = .ok (columns ++ (r.query predicate).text ++ ";\n")) ∧
      ∀ record, record ∈ (r.query predicate).selected meets content ↔
        record ∈ content r.source ∧ predicate.holds record (record.touches meets content) ∧
          ∀ name ∈ predicate.targets, content name ≠ [] := by
  refine ⟨exists_sql_eq filters, fun record => ?_⟩
  have free : sourceAlias ∉ predicate.targets := made.sourceAlias_not_mem_targets filters
  have bound : ∀ others : List (String × Record γ),
      ((sourceAlias, record) :: others).lookup sourceAlias = some record := by simp
  have target : ∀ name ∈ predicate.mentions, name ∈ predicate.targets ∧ name ≠ sourceAlias := by
    intro name member
    have listed := Predicate.mem_targets_iff.2 member
    exact ⟨listed, fun same => free (same ▸ listed)⟩
  rw [mem_selected_iff_exists]
  constructor
  · rintro ⟨source, others, chosen, passes⟩
    have met := (predicate.eval_expr_iff (bound others)).1 passes
    refine ⟨source, predicate.holds_mono (fun name member => ?_) met, fun name listed => ?_⟩
    · obtain ⟨listed, other⟩ := target name member
      rw [Sql.lookup_of_ne other]
      exact touches_of_chosen chosen listed
    · obtain ⟨other, there, -⟩ := Sql.exists_of_mem_crossJoin chosen listed
      exact List.ne_nil_of_mem there
  · rintro ⟨source, met, filled⟩
    obtain ⟨others, chosen, serves⟩ := exists_choice meets record filled
    refine ⟨source, others, chosen, (predicate.eval_expr_iff (bound others)).2 ?_⟩
    refine predicate.holds_mono (fun name member touched => ?_) met
    obtain ⟨listed, other⟩ := target name member
    rw [Sql.lookup_of_ne other]
    exact serves name listed touched

namespace Example

/-- Named nodes, and nodes in a zone. -/
def zonedPredicate : Predicate := .any [.hasTag "name", .intersects "zone"]

def zoned : Request := Check.Example.nodeFilter "hit" "nodes" zonedPredicate

/-- A named node at a place. -/
def elm : Record Nat := ⟨some [("name", some "Elm")], some 0⟩

/-- One node, and nothing else. -/
def onlyElm (name : String) : List (Record Nat) :=
  if name = "nodes" then [elm] else []

/-- A zone that is mentioned twice, and a road beside it. -/
def crossingPredicate : Predicate :=
  .all [.any [.intersects "zone", .intersects "road"], .intersects "zone", .lacksTag "ref"]

def crossing : Request := Check.Example.nodeFilter "hit" "nodes" crossingPredicate

/-- The node is in the second of two zones, and the road has no geometry. -/
def mapped (name : String) : List (Record Nat) :=
  if name = "nodes" then [elm]
  else if name = "zone" then [⟨none, some 1⟩, ⟨none, some 0⟩]
  else [⟨none, none⟩]

theorem zoned_made : zoned.Made := by decide

theorem crossing_made : crossing.Made := by decide

example : (crossing.query crossingPredicate).selected (fun a b => a = b) mapped = [elm] := by decide

end Example

theorem crossing_mem_selected_iff :
    Example.crossing.Made ∧ Example.crossing.operation = .filter (.of Example.crossingPredicate) ∧
      (∀ isSink, ∃ columns, Example.crossing.sql isSink =
        .ok (columns ++ (Example.crossing.query Example.crossingPredicate).text ++ ";\n")) ∧
      ∀ record, record ∈ (Example.crossing.query Example.crossingPredicate).selected
          (fun a b => a = b) Example.mapped ↔
        record ∈ Example.mapped Example.crossing.source ∧
          Example.crossingPredicate.holds record
            (record.touches (fun a b => a = b) Example.mapped) ∧
          ∀ name ∈ Example.crossingPredicate.targets, Example.mapped name ≠ [] :=
  ⟨Example.crossing_made, rfl, mem_selected_iff Example.crossing_made rfl _ _⟩

/-- **An empty relation hides records that do not need it.**  The node has a name, and
that is enough for the predicate; but its filter is joined with a zone that is empty. -/
theorem zoned_hides_named_node :
    Example.zoned.Made ∧ Example.zoned.operation = .filter (.of Example.zonedPredicate) ∧
      (∀ isSink, ∃ columns, Example.zoned.sql isSink =
        .ok (columns ++ (Example.zoned.query Example.zonedPredicate).text ++ ";\n")) ∧
      ¬ (Example.elm ∈ (Example.zoned.query Example.zonedPredicate).selected
          (fun a b => a = b) Example.onlyElm ↔
        Example.elm ∈ Example.onlyElm Example.zoned.source ∧
          Example.zonedPredicate.holds Example.elm
            (Example.elm.touches (fun a b => a = b) Example.onlyElm)) :=
  ⟨Example.zoned_made, rfl, exists_sql_eq rfl, by decide⟩

end Request

end MapAudit
