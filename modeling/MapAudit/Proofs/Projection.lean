import MapAudit.Proofs.Decoding
import MapAudit.Proofs.Effect
import MapAudit.Proofs.Layout

/-!
# Which columns an output statement selects

`Sql.projection` reads the columns that a statement selects off its text: what stands
between `SELECT` and the `FROM` that belongs to it, divided at the commas outside of
brackets.  The output statement of a check selects the id of a feature and, of a node, its
position as well-known text.  These are the columns that a row of the check is decoded from,
so a row in which they are all there decodes if its id does.
-/

namespace MapAudit

set_option autoImplicit false

/-! ## Columns of a statement -/

namespace Sql

/-- The words of a text, commas, brackets and semicolons among them. -/
def tokens (text : List Char) : List String :=
  (lexemes text).map String.ofList

/-- A column of a selection, word by word. -/
abbrev Column := List String

/-- Divide tokens at the commas outside of brackets, up to the first `FROM` outside of
brackets; `depth` brackets are open, and `column` is what the column at hand begins with. -/
def columnsOf (depth : Nat) (column : Column) : List String → List Column
  | [] => [column]
  | token :: rest =>
      if depth = 0 ∧ token = "FROM" then [column]
      else if depth = 0 ∧ token = "," then column :: columnsOf 0 [] rest
      else if token = "(" then columnsOf (depth + 1) (column ++ [token]) rest
      else if token = ")" then columnsOf (depth - 1) (column ++ [token]) rest
      else columnsOf depth (column ++ [token]) rest

/-- The columns that a statement selects. -/
def projection (sql : String) : List Column :=
  match tokens (exposed .outside sql.toList) with
  | "SELECT" :: "DISTINCT" :: rest => columnsOf 0 [] rest
  | "SELECT" :: rest => columnsOf 0 [] rest
  | _ => []

theorem tokens_append {text more : List Char}
    (apart : text.getLast?.all isGap ∨ more.head?.all isGap) :
    tokens (text ++ more) = tokens text ++ tokens more := by
  rw [tokens, lexemes_append apart, List.map_append]
  rfl

end Sql

/-! ## Output statements -/

/-- The columns that report a feature of a kind. -/
def ResultKind.columns : ResultKind → List Sql.Column
  | .point => [["el.id", "AS", "id"], ["ST_AsText", "(", "el.geom", ")", "AS", "geom"]]
  | .way => [["el.id", "AS", "id"]]
  | .relation => [["el.id", "AS", "id"]]

namespace Request

theorem exists_exposed_outputSql (r : Request) (criterion : Criterion) :
    ∃ rest, Sql.exposed .outside (outputSql r criterion).toList =
      Legible.outputText r.feature ++ "FROM".toList ++ ' ' :: rest := by
  -- Up to its source the text is fixed and has no quote, so what follows, whatever it is,
  -- begins outside of literals.
  have begins : ∃ rest, (outputSql r criterion).toList =
      (Legible.outputText r.feature ++ "FROM ".toList) ++ rest := by
    unfold outputSql selection fromClause Legible.outputText
    simp only [String.toList_append, List.append_assoc]
    exact ⟨_, rfl⟩
  have plain : Sql.quoteMark ∉ Legible.outputText r.feature ++ "FROM ".toList := by
    cases r.feature <;> decide +kernel
  obtain ⟨rest, text⟩ := begins
  obtain ⟨outside, shown⟩ := Sql.scan_of_no_quote plain
  refine ⟨Sql.exposed .outside rest, ?_⟩
  rw [text, Sql.exposed_append, outside, shown,
    show "FROM ".toList = "FROM".toList ++ [' '] from rfl]
  simp only [List.append_assoc, List.singleton_append]

theorem tokens_outputText (feature : FeatureKind) :
    Sql.tokens (Legible.outputText feature ++ "FROM".toList) = "SELECT" :: "DISTINCT" ::
      (List.intercalate [","] (ResultKind.ofFeature feature).columns ++ ["FROM"]) := by
  cases feature <;> decide +kernel

/-- **The statement of a sink selects the columns of the kind it reports**, whatever it reads
and keeps. -/
theorem projection_outputSql (r : Request) (criterion : Criterion) :
    Sql.projection (outputSql r criterion) = (ResultKind.ofFeature r.feature).columns := by
  obtain ⟨rest, shown⟩ := exists_exposed_outputSql r criterion
  rw [Sql.projection, shown, Sql.tokens_append (Or.inr rfl),
    tokens_outputText]
  generalize Sql.tokens (' ' :: rest) = later
  cases r.feature <;> rfl

theorem exists_sql_eq_outputSql {r : Request} {text : String} (written : r.sql true = .ok text) :
    ∃ criterion, text = outputSql r criterion := by
  unfold sql at written
  split at written
  · next sink => cases sink
  · cases written
  · next sink => cases sink
  · cases written
    exact ⟨_, rfl⟩

end Request

/-! ## Rows of an output statement -/

/-- A kind has as many columns as a row must have. -/
theorem Run.Feature.exists_reported {kind : ResultKind} {row : Run.Row}
    (filled : ∀ n < kind.columns.length, ∃ text, row[n]? = some (some text)) (id : Int) :
    ∃ feature, Reported row id kind feature ∧ feature.id = id := by
  cases kind with
  | point =>
      obtain ⟨position, placed⟩ := filled 1 (by decide)
      exact ⟨.node id position, ⟨position, placed, rfl⟩, rfl⟩
  | way => exact ⟨.way id, rfl, rfl⟩
  | relation => exact ⟨.relation id, rfl, rfl⟩

namespace Check

variable {c : Check} {p : Pipeline}

theorem LaidOut.projection {before : List Statement} {output : Statement}
    (compiled : c.compile = .ok p) (laidOut : c.LaidOut p before output) :
    Sql.projection output.sql = p.result.columns := by
  have member : output ∈ p.statements := by simp [laidOut.split]
  obtain ⟨-, -, -, result⟩ := compile_eq_ok_iff.1 compiled
  rcases statement_cases compiled member with rfl | ⟨r, request, named, stated⟩
  · cases laidOut.reports
  · have found : c.find? c.sink.name = some r :=
      find?_eq_some_iff.2 ⟨request, named.trans laidOut.sink⟩
    obtain rfl := Option.some.inj (c.find?_sink.symm.trans found)
    obtain ⟨-, -, written⟩ := Request.statement_eq_ok_iff.1 stated
    rw [decide_eq_true rfl] at written
    obtain ⟨criterion, text⟩ := Request.exists_sql_eq_outputSql written
    rw [text, Request.projection_outputSql, result]

/-- **What an output statement selects is what its rows are decoded from.**  It selects the id
of a feature and, of a node, its position.  A row decodes exactly if its first column, without
the blanks around it, is a decimal integer of at most 64 bits and, where a node is reported,
its second column is there; the feature has that id and that position.  So a row with all the
columns selected decodes if its first column does. -/
theorem selected_columns_decode (compiled : c.compile = .ok p) :
    ∃ output, p.output? = some output ∧
      Sql.projection output.sql = p.result.columns ∧
      (∀ kind row feature, Run.Feature.decode kind row = .ok feature ↔
        ∃ text id, row[0]? = some (some text) ∧ Text.Decimal (Text.trim text).toList id ∧
          Text.FitsInt64 id ∧ Run.Feature.Reported row id kind feature) ∧
      ∀ row : Run.Row,
        (∀ n < (Sql.projection output.sql).length, ∃ text, row[n]? = some (some text)) →
        ∀ text id, row[0]? = some (some text) → Text.Decimal (Text.trim text).toList id →
          Text.FitsInt64 id →
          ∃ feature, Run.Feature.decode p.result row = .ok feature ∧ feature.id = id := by
  obtain ⟨before, output, laidOut⟩ := exists_laidOut compiled
  have selected := laidOut.projection compiled
  refine ⟨output, laidOut.output?_eq, selected,
    fun kind row feature => Run.Feature.decode_eq_ok_iff, ?_⟩
  intro row filled text id column decimal fits
  rw [selected] at filled
  obtain ⟨feature, reported, own⟩ := Run.Feature.exists_reported filled id
  exact ⟨feature,
    Run.Feature.decode_eq_ok_iff.2 ⟨text, id, column, decimal, fits, reported⟩, own⟩

namespace Example

/-- A row with the least id there is. -/
def least : Run.Row :=
  [some " -9223372036854775808\n", some "POINT (8 47)"]

theorem least_filled : ∀ n < 2, ∃ text, least[n]? = some (some text) := by
  intro n below
  match n, below with
  | 0, _ => exact ⟨_, rfl⟩
  | 1, _ => exact ⟨_, rfl⟩

end Example

theorem bordered_selected_columns_decode :
    Example.bordered.compile = .ok Example.borderedPipeline ∧
      ∃ output, Example.borderedPipeline.output? = some output ∧
        (Sql.projection output.sql).length = 2 ∧
        ∃ feature, Run.Feature.decode .point Example.least = .ok feature ∧
          feature.id = Int64.minValue.toInt := by
  refine ⟨Example.bordered_compile, ?_⟩
  obtain ⟨output, last, selected, -, decodes⟩ := selected_columns_decode Example.bordered_compile
  have count : (Sql.projection output.sql).length = 2 := by
    rw [selected]
    rfl
  have decimal :
      Text.Decimal (Text.trim " -9223372036854775808\n").toList Int64.minValue.toInt :=
    Text.signed?_eq_some_iff.1 (by decide +kernel)
  have fits : Text.FitsInt64 Int64.minValue.toInt := by
    unfold Text.FitsInt64
    decide
  exact ⟨output, last, count,
    decodes Example.least (count ▸ Example.least_filled) _ _ rfl decimal fits⟩

end Check

end MapAudit
