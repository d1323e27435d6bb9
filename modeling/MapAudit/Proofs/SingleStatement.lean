import MapAudit.Proofs.Compilation
import MapAudit.Proofs.Numeral
import MapAudit.Proofs.Resolution
import MapAudit.Proofs.Scan

/-!
# Every statement of a pipeline is one statement

User text comes into a statement in three ways.  Names and distances are written
as they are, and have a form that holds nothing a statement or a comment could
begin or end with.  Texts of tags are quoted.  The targets of intersections have
no form of their own; but a plan holds a relation for each of them, so that they
are names of requests or of built-in sources.
-/

namespace MapAudit

set_option autoImplicit false

namespace Sql

/-! ## Names and distances are bare -/

/-- An identifier has nothing that could end a statement or open a comment. -/
theorem bare_of_isIdentifier {s : String} (identifier : isIdentifier s) : bare s.toList := by
  have plain : isPlain isIdentifierPart := by decide
  exact bare_of_isPlain plain (isIdentifierPart_of_mem identifier)

/-- Digits before a bare text are bare, also behind a minus. -/
theorem bare_digits_append {run rest : List Char} (digits : Text.Digits run) (later : bare rest) :
    bare (run ++ rest) ∧ bare ('-' :: (run ++ rest)) := by
  have plain : isPlain Text.isDigit := by decide
  have each : ∀ c ∈ run, Text.isDigit c := List.all_eq_true.1 (Text.digits_iff.2 digits).2
  have text : bare (run ++ rest) := bare_append (bare_of_isPlain plain each) later
  obtain ⟨first, more, rfl⟩ := List.exists_cons_of_ne_nil digits.nonempty
  exact ⟨text, bare_dash (ne_of_isPlain plain (each first List.mem_cons_self)).2.2.2 text⟩

theorem Exponent.bare_chars (e : Exponent) : bare e.chars := by
  obtain ⟨⟨mark, isMark⟩, sign, ⟨run, digits⟩⟩ := e
  have nothing : bare [] := by decide
  obtain ⟨plain, negative⟩ := bare_digits_append digits nothing
  rw [List.append_nil] at plain negative
  have marked : bare [mark] := by rcases isMark with rfl | rfl <;> decide
  have signed : bare ((sign.elim [] fun c => [c.1]) ++ run) := by
    rcases sign with _ | ⟨_, rfl | rfl⟩
    · exact plain
    · exact negative
    · have plus : bare ['+'] := by decide
      exact bare_append plus plain
  rw [Exponent.chars, List.append_assoc]
  exact bare_append marked signed

theorem Numeral.bare_chars (n : Numeral) : bare n.chars := by
  obtain ⟨minus, ⟨whole, digits⟩, fraction, exponent⟩ := n
  have power : bare (exponent.elim [] Exponent.chars) := by
    cases exponent with
    | none => decide
    | some e => exact e.bare_chars
  have later : bare ((fraction.elim [] fun run => '.' :: run.1) ++
      exponent.elim [] Exponent.chars) := by
    cases fraction with
    | none => exact power
    | some run =>
        have point : bare ['.'] := by decide
        show bare (['.'] ++ (run.1 ++ exponent.elim [] Exponent.chars))
        exact bare_append point (bare_digits_append run.2 power).1
  obtain ⟨positive, negative⟩ := bare_digits_append digits later
  cases minus with
  | false => simpa [Numeral.chars] using positive
  | true => simpa [Numeral.chars] using negative

/-- A distance has at most one dash in a row, and so opens no comment. -/
theorem bare_of_isDistance {s : String} (distance : isDistance s) : bare s.toList := by
  obtain ⟨n, rfl⟩ := isDistance_iff_isNumeral.1 distance
  rw [Numeral.text, String.toList_ofList]
  exact n.bare_chars

end Sql

open Sql (Fragment OneStatement bare fragment_of_bare)

/-! ## Conditions -/

namespace Predicate

theorem mem_addNew {names : List String} {name other : String} :
    other ∈ addNew names name ↔ other ∈ names ∨ other = name := by
  unfold addNew
  split
  · rename_i there
    exact ⟨Or.inl, fun either => either.elim id fun same => same ▸ there⟩
  · simp

/-- The targets of a tree are the names it mentions. -/
theorem mem_targets_iff {p : Predicate} {name : String} : name ∈ p.targets ↔ name ∈ p.mentions := by
  have fold : ∀ (mentioned start : List String),
      name ∈ mentioned.foldl addNew start ↔ name ∈ start ∨ name ∈ mentioned := by
    intro mentioned
    induction mentioned with
    | nil => simp
    | cons first rest ih =>
        intro start
        rw [List.foldl_cons, ih, mem_addNew, List.mem_cons, or_assoc]
  rw [targets, fold]
  simp

theorem bare_word (connective : Connective) : bare connective.word.toList := by
  cases connective <;> decide

variable {row : String}

mutual

/-- **A condition is a fragment** when the names in it are bare, whatever its tags
are. -/
theorem fragment_condition (bound : bare row.toList) : (p : Predicate) →
    (∀ name ∈ p.mentions, bare name.toList) → Fragment (p.condition row)
  | .all parts, names => by
      have inner := Sql.fragment_joinWith (fragment_of_bare (bare_word .and))
        (fragment_conditions bound parts names)
      exact ((fragment_of_bare (by decide)).append inner).append_bare (by decide)
  | .any parts, names => by
      have inner := Sql.fragment_joinWith (fragment_of_bare (bare_word .or))
        (fragment_conditions bound parts names)
      exact ((fragment_of_bare (by decide)).append inner).append_bare (by decide)
  | .hasTag key, _ => (fragment_of_bare bound).append_quote (by decide) (by decide) key
  | .lacksTag key, _ =>
      ((fragment_of_bare (by decide)).append_bare bound).append_quote (by decide) (by decide) key
  | .tagEquals key value, _ =>
      ((fragment_of_bare bound).append_quote (by decide) (by decide) key).append_quote
        (by decide) (by decide) value
  | .tagDiffers key value, _ =>
      ((fragment_of_bare bound).append_quote (by decide) (by decide) key).append_quote
        (by decide) (by decide) value
  | .intersects target, names => by
      have named : bare target.toList := names target (by simp [mentions])
      refine Fragment.append_bare ?_ (by decide)
      refine Fragment.append_bare ?_ named
      refine Fragment.append_bare ?_ (by decide)
      exact (fragment_of_bare (by decide)).append_bare bound

theorem fragment_conditions (bound : bare row.toList) : (parts : List Predicate) →
    (∀ name ∈ mentionsAll parts, bare name.toList) → ∀ s ∈ conditions row parts, Fragment s
  | [], _ => by simp [conditions]
  | part :: parts, names => by
      have first := fragment_condition bound part fun name member =>
        names name (List.mem_append_left _ member)
      have others := fragment_conditions bound parts fun name member =>
        names name (List.mem_append_right _ member)
      intro s member
      rcases List.mem_cons.1 member with rfl | later
      · exact first
      · exact others s later

end

end Predicate

/-! ## Statements -/

theorem bare_sourceAlias : bare sourceAlias.toList := by decide

theorem fragment_fromClause {source : String} {joins : List String} (read : bare source.toList)
    (joined : ∀ join ∈ joins, bare join.toList) : Fragment (fromClause source joins) := by
  have crossed : ∀ s ∈ joins.map (fun join => "\n    CROSS JOIN " ++ join), Fragment s := by
    intro s member
    obtain ⟨join, listed, rfl⟩ := List.mem_map.1 member
    exact (fragment_of_bare (by decide)).append_bare (joined join listed)
  have nothing : Fragment "" := fragment_of_bare (by decide)
  unfold fromClause
  refine Fragment.append ?_ (Sql.fragment_joinWith nothing crossed)
  refine Fragment.append_bare ?_ bare_sourceAlias
  refine Fragment.append_bare ?_ (by decide)
  exact (fragment_of_bare (by decide)).append_bare read

/-- What the statement of a request holds as it is, is bare. -/
structure Request.Bare (r : Request) : Prop where
  name : bare r.name.toList
  source : bare r.source.toList
  joins : ∀ join ∈ r.joins, bare join.toList
  distance : ∀ distance, r.operation = .buffer distance → bare distance.toList

namespace Request.Bare

variable {r : Request} {criterion : Criterion}

/-- Columns and the selection of a filter are one statement. -/
theorem oneStatement_selection (plain : r.Bare) (filters : r.operation = .filter criterion)
    {columns : String} (before : Fragment columns) :
    OneStatement (columns ++ selection r criterion) := by
  have joins : ∀ name ∈ criterion.joins, bare name.toList := by
    have joins := plain.joins
    rw [Request.joins, filters] at joins
    exact joins
  have clause : Fragment (fromClause r.source criterion.joins) :=
    fragment_fromClause plain.source joins
  have condition : Fragment criterion.condition := by
    rw [criterion.condition_eq]
    refine Predicate.fragment_condition bare_sourceAlias _ fun name member => joins name ?_
    rw [criterion.joins_eq]
    exact Predicate.mem_targets_iff.2 member
  rw [selection, ← String.append_assoc, ← String.append_assoc, ← String.append_assoc]
  exact (((before.append clause).append_bare (by decide)).append condition).semicolon_newline

theorem fragment_create (plain : r.Bare) : Fragment ("\nCREATE TEMP TABLE " ++ r.name) :=
  (fragment_of_bare (by decide)).append_bare plain.name

-- The parts of a statement are taken off its end, one after another.
theorem oneStatement_bufferSql (plain : r.Bare) {distance : String}
    (buffers : r.operation = .buffer distance) : OneStatement (bufferSql r distance) := by
  have number : bare distance.toList := plain.distance distance buffers
  unfold bufferSql
  apply Fragment.semicolon_newline
  refine Fragment.append_bare ?_ bare_sourceAlias
  refine Fragment.append_bare ?_ (by decide)
  refine Fragment.append_bare ?_ plain.source
  refine Fragment.append_bare ?_ (by decide)
  refine Fragment.append_bare ?_ bare_sourceAlias
  refine Fragment.append_bare ?_ (by decide)
  refine Fragment.append_quote ?_ (by decide) (by decide) r.feature.name
  refine Fragment.append_bare ?_ number
  refine Fragment.append_bare ?_ (by decide)
  refine Fragment.append_bare ?_ bare_sourceAlias
  refine Fragment.append_bare ?_ (by decide)
  refine Fragment.append_bare ?_ bare_sourceAlias
  exact plain.fragment_create.append_bare (by decide)

theorem oneStatement_filterSql (plain : r.Bare) (filters : r.operation = .filter criterion) :
    OneStatement (filterSql r criterion) := by
  unfold filterSql
  apply plain.oneStatement_selection filters
  refine Fragment.append_bare ?_ (by decide)
  refine Fragment.append_bare ?_ bare_sourceAlias
  refine Fragment.append_bare ?_ (by decide)
  refine Fragment.append_bare ?_ bare_sourceAlias
  refine Fragment.append_bare ?_ (by decide)
  refine Fragment.append_quote ?_ (by decide) (by decide) r.feature.name
  refine Fragment.append_bare ?_ bare_sourceAlias
  exact plain.fragment_create.append_bare (by decide)

theorem oneStatement_outputSql (plain : r.Bare) (filters : r.operation = .filter criterion) :
    OneStatement (outputSql r criterion) := by
  have columns : bare (Text.joinWith ",\n    " (outputColumns r.feature)).toList := by
    cases r.feature <;> decide
  unfold outputSql
  apply plain.oneStatement_selection filters
  exact ((fragment_of_bare (by decide)).append_bare columns).append_bare (by decide)

/-- **The text of a request is one statement**, whatever its tags hold. -/
theorem oneStatement_sql (plain : r.Bare) {isSink : Bool} {text : String}
    (written : r.sql isSink = .ok text) : OneStatement text := by
  unfold sql at written
  split at written
  · rename_i distance buffers
    obtain rfl := Except.ok.inj written
    exact plain.oneStatement_bufferSql buffers
  · cases written
  · rename_i criterion filters
    obtain rfl := Except.ok.inj written
    exact plain.oneStatement_filterSql filters
  · rename_i criterion filters
    obtain rfl := Except.ok.inj written
    exact plain.oneStatement_outputSql filters

end Request.Bare

theorem oneStatement_relationsPolygonSql : OneStatement Builtin.relationsPolygonSql := by
  have member : Fragment "        relation_members.member_type = 'W'\n" :=
    ⟨by decide, by decide, by decide, by decide⟩
  have ending : "    el.id;\n" = "    el.id" ++ ";\n" := by decide
  unfold Builtin.relationsPolygonSql
  rw [ending, ← String.append_assoc]
  apply Fragment.semicolon_newline
  iterate 5 refine Fragment.append_bare ?_ (by decide)
  refine Fragment.append ?_ member
  iterate 8 refine Fragment.append_bare ?_ (by decide)
  exact fragment_of_bare (by decide)

theorem oneStatement_setup {source : Builtin} {text : String} (setup : source.setup? = some text) :
    OneStatement text := by
  cases source with
  | relationsPolygon =>
      obtain rfl := Option.some.inj setup
      exact oneStatement_relationsPolygonSql
  | nodes => cases setup
  | waysLinestring => cases setup
  | waysBbox => cases setup

/-! ## Pipelines -/

theorem Builtin.isIdentifier_name (source : Builtin) : Sql.isIdentifier source.name := by
  cases source <;> decide

/-- The texts of a request that its statement holds as they are have their form. -/
structure Request.Legible (r : Request) : Prop where
  name : Sql.isIdentifier r.name
  source : Sql.isIdentifier r.source
  joins : ∀ join ∈ r.joins, Sql.isIdentifier join
  distance : ∀ distance, r.operation = .buffer distance → Sql.isDistance distance

theorem Request.Bare.of_legible {r : Request} (legible : r.Legible) : r.Bare where
  name := Sql.bare_of_isIdentifier legible.name
  source := Sql.bare_of_isIdentifier legible.source
  joins := fun join listed => Sql.bare_of_isIdentifier (legible.joins join listed)
  distance := fun distance buffers => Sql.bare_of_isDistance (legible.distance distance buffers)

namespace Check

variable {c : Check}

/-- The names that a plan may hold are identifiers. -/
theorem isIdentifier_of_known (made : ∀ r ∈ c.requests, r.Made) {name : String}
    (known : c.Known name) : Sql.isIdentifier name := by
  rcases known with ⟨source, rfl⟩ | ⟨r, request, rfl⟩
  · exact source.isIdentifier_name
  · exact (made r request).isIdentifier_name

theorem bare_of_known (made : ∀ r ∈ c.requests, r.Made) {name : String} (known : c.Known name) :
    bare name.toList :=
  Sql.bare_of_isIdentifier (isIdentifier_of_known made known)

/-- Nothing checks the form of what a predicate intersects with; but a plan that
holds a request holds all its joins, which are therefore known. -/
theorem legible_of_planned (made : ∀ r ∈ c.requests, r.Made) {plan : Plan}
    (planned : c.plan = .ok plan) {r : Request} (request : r ∈ c.requests)
    (member : r.name ∈ plan.names) : r.Legible := by
  have sound : c.Sound [] c.sink.name plan := sound_of_resolve planned
  constructor
  · exact (made r request).isIdentifier_name
  · exact (made r request).isIdentifier_source
  · intro join listed
    have needs : c.Needs r.name join := ⟨r, request, rfl, Request.mem_dependencies_of_join listed⟩
    exact isIdentifier_of_known made (sound.known join (sound.arranged.mem_of_needs member needs))
  · exact fun distance buffers => (made r request).isDistance buffers

theorem bare_of_planned (made : ∀ r ∈ c.requests, r.Made) {plan : Plan}
    (planned : c.plan = .ok plan) {r : Request} (request : r ∈ c.requests)
    (member : r.name ∈ plan.names) : r.Bare :=
  .of_legible (legible_of_planned made planned request member)

/-- **Every statement of a pipeline is one statement**, and so is every statement
that drops a relation.  The predicates of the requests may be any trees with any
texts in them. -/
theorem oneStatement_of_compile (made : ∀ r ∈ c.requests, r.Made) {p : Pipeline}
    (compiled : c.compile = .ok p) : ∀ s ∈ p.statements ++ p.teardown, OneStatement s.sql := by
  obtain ⟨planned, written, -, -⟩ := compile_eq_ok_iff.1 compiled
  have each : ∀ s ∈ p.statements, OneStatement s.sql ∧ bare s.relation.toList := by
    intro s member
    obtain ⟨relation, inPlan, stated⟩ := (mem_statementsOf written).1 member
    rcases statementOf_cases stated with ⟨source, sql, builtin, setup, rfl⟩ | ⟨r, found, stated⟩
    · refine ⟨oneStatement_setup setup, ?_⟩
      exact bare_of_known made (known_of_builtin builtin)
    · obtain ⟨named, -, text⟩ := Request.statement_eq_ok_iff.1 stated
      have plain : r.Bare := bare_of_planned made planned (find?_mem found) (by
        rw [find?_name found]
        exact Plan.mem_names_of_mem inPlan)
      exact ⟨plain.oneStatement_sql text, named ▸ plain.name⟩
  intro s member
  rcases List.mem_append.1 member with statement | teardown
  · exact (each s statement).1
  · obtain ⟨created, listed, rfl⟩ := List.mem_map.1 teardown
    have plain := (each created (by simpa using (List.mem_filter.1 listed).1)).2
    exact ((fragment_of_bare (by decide)).append_bare plain).semicolon

namespace Example

/-- Relations grown by a distance with two signs. -/
def grown : Request :=
  ⟨"grown", .relation, .polygon, "relations_polygon", .buffer "-1.5e-3"⟩

/-- Tags that hold quotes, semicolons and comments. -/
def hostilePredicate : Predicate :=
  .all [.tagEquals "it's" "'; DROP TABLE nodes; --", .lacksTag "/*''", .intersects "grown"]

def hostile : Check where
  issueClass := ⟨"8", "9001", "2", "Hostile tags"⟩
  earlier := [grown]
  sink := nodeFilter "hit" "nodes" hostilePredicate
  distinct := by decide
  unshadowed := by decide

def hostilePlan : Plan := [
  ⟨"nodes", .node, .point⟩, ⟨"relations_polygon", .relation, .polygon⟩,
  ⟨"grown", .relation, .polygon⟩, ⟨"hit", .node, .point⟩]

def hostilePipeline : Pipeline where
  issueClass := hostile.issueClass
  plan := hostilePlan
  statements := [
    ⟨"relations_polygon", .setup, Builtin.relationsPolygonSql⟩,
    ⟨"grown", .materialize, bufferSql grown "-1.5e-3"⟩,
    ⟨"hit", .output, outputSql hostile.sink (.of hostilePredicate)⟩]
  result := .ofFeature .node

theorem hostile_made : ∀ r ∈ hostile.requests, r.Made := by decide

theorem hostile_compile : hostile.compile = .ok hostilePipeline := by
  have planned : hostile.plan = .ok hostilePlan := by decide +kernel
  exact compile_eq_ok_iff.2 ⟨planned, rfl, rfl, rfl⟩

end Example

theorem hostile_oneStatement :
    (∀ r ∈ Example.hostile.requests, r.Made) ∧
      Example.hostile.compile = .ok Example.hostilePipeline ∧
      ∀ s ∈ Example.hostilePipeline.statements ++ Example.hostilePipeline.teardown,
        OneStatement s.sql :=
  ⟨Example.hostile_made, Example.hostile_compile,
    oneStatement_of_compile Example.hostile_made Example.hostile_compile⟩

end Check

end MapAudit
