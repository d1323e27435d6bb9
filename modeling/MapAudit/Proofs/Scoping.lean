import MapAudit.Proofs.Brackets
import MapAudit.Proofs.Selection

/-!
# The rows that a filter binds and uses

The query of a filter binds the rows of its source to an alias and the rows of every joined
relation to the name of the relation.  No name is bound twice, and every name that the
condition uses is bound.  The joins and the condition are found by separate recursions over
the predicate; what they agree on is `Predicate.mentions`, where the joins are the first
occurrences (`firstOccurrences_targets`) and the condition uses nothing else
(`mem_of_mem_qualifiers`).

The same is read off the text of a query: `Sql.boundRows` finds the rows that its clause
binds, and `Sql.qualifiers` the names before the columns in it.
-/

namespace MapAudit

set_option autoImplicit false

/-! ## First occurrences -/

/-- `names` are the members of `all`, each once, in the order in which they first occur. -/
structure FirstOccurrences (all names : List String) : Prop where
  distinct : names.Nodup
  listed : ∀ name, name ∈ names ↔ name ∈ all
  ordered : names.Pairwise fun a b => all.idxOf a < all.idxOf b

theorem firstOccurrences_nil : FirstOccurrences [] [] where
  distinct := List.nodup_nil
  listed _ := Iff.rfl
  ordered := List.Pairwise.nil

namespace FirstOccurrences

variable {all names : List String}

/-- **One step**: one more member is a first occurrence unless it is there already. -/
theorem addNew (first : FirstOccurrences all names) (name : String) :
    FirstOccurrences (all ++ [name]) (Predicate.addNew names name) := by
  have earlier : names.Pairwise fun a b => (all ++ [name]).idxOf a < (all ++ [name]).idxOf b := by
    refine first.ordered.imp_of_mem fun {a b} here there before => ?_
    rwa [List.idxOf_append_of_mem ((first.listed a).1 here),
      List.idxOf_append_of_mem ((first.listed b).1 there)]
  have listed : ∀ other, other ∈ Predicate.addNew names name ↔ other ∈ all ++ [name] := by
    intro other
    rw [Predicate.mem_addNew, first.listed, List.mem_append, List.mem_singleton]
  by_cases there : name ∈ names
  · have same : Predicate.addNew names name = names := if_pos there
    rw [same] at listed ⊢
    exact ⟨first.distinct, listed, earlier⟩
  · have longer : Predicate.addNew names name = names ++ [name] := if_neg there
    have absent : name ∉ all := fun member => there ((first.listed name).2 member)
    rw [longer] at listed ⊢
    refine ⟨?_, listed, ?_⟩
    · exact List.nodup_append.2 ⟨first.distinct, List.nodup_singleton name, by
        rintro other old last same rfl
        exact there (List.mem_singleton.1 same ▸ old)⟩
    · refine List.pairwise_append.2 ⟨earlier, List.pairwise_singleton _ _, ?_⟩
      intro other old last same
      rw [List.mem_singleton] at same
      subst same
      have member : other ∈ all := (first.listed other).1 old
      rw [List.idxOf_append_of_mem member, List.idxOf_append_of_notMem absent]
      exact Nat.lt_add_right _ (List.idxOf_lt_length_of_mem member)

end FirstOccurrences

theorem firstOccurrences_foldl (all : List String) :
    FirstOccurrences all (all.foldl Predicate.addNew []) := by
  induction all using List.reverseRecOn with
  | nil => exact firstOccurrences_nil
  | append_singleton all name ih =>
      rw [List.foldl_append]
      exact ih.addNew name

/-! ## Names that a condition uses -/

namespace Sql

namespace Expr

mutual

/-- The names before the columns of a condition, in the order of its text. -/
def qualifiers : Expr → List String
  | .conj parts => qualifiersAll parts
  | .disj parts => qualifiersAll parts
  | .neg part => qualifiers part
  | .hasKey row _ => [row]
  | .equals row _ _ => [row]
  | .differs row _ _ => [row]
  | .intersects row other => [row, other]

def qualifiersAll : List Expr → List String
  | [] => []
  | part :: parts => qualifiers part ++ qualifiersAll parts

end

end Expr

/-! ## Names in a text -/

/-- The names before the periods of a word. -/
def qualifiersOf (word : String) : List String :=
  (word.toList.splitOn '.').dropLast.map String.ofList

/-- The names before the columns of a text. -/
def qualifiersIn (text : List Char) : List String :=
  (words text).flatMap qualifiersOf

/-- The names before the columns of a text, outside of its literals. -/
def qualifiers (sql : String) : List String :=
  qualifiersIn (exposed .outside sql.toList)

theorem qualifiersIn_append {text more : List Char}
    (apart : text.getLast?.all isGap ∨ more.head?.all isGap) :
    qualifiersIn (text ++ more) = qualifiersIn text ++ qualifiersIn more := by
  rw [qualifiersIn, words_append apart, List.flatMap_append]
  rfl

theorem period_not_mem {name : String} (identifier : isIdentifier name) : '.' ∉ name.toList :=
  fun member => absurd (isIdentifierPart_of_mem identifier '.' member) (by decide)

theorem qualifiersOf_name {name : String} (identifier : isIdentifier name) :
    qualifiersOf name = [] := by
  rw [qualifiersOf, List.splitOn_eq_singleton (period_not_mem identifier)]
  rfl

/-- An identifier before a column is named whole. -/
theorem qualifiersIn_column {name : String} (identifier : isIdentifier name) :
    qualifiersIn (name ++ ".geom").toList = [name] := by
  have dotted : (name ++ ".geom").toList = name.toList ++ '.' :: "geom".toList := by
    rw [String.toList_append]
    rfl
  have column : "geom".toList.splitOn '.' = ["geom".toList] := by decide
  rw [qualifiersIn, words_column identifier, List.flatMap_singleton, qualifiersOf, dotted,
    List.splitOn_append_cons_self_of_not_mem (period_not_mem identifier), column,
    List.dropLast_cons_of_ne_nil (List.cons_ne_nil _ _)]
  simp

end Sql

namespace Predicate

open Sql (Expr isGap qualifiersIn qualifiersIn_append)

variable {row : String} {p : Predicate}

theorem qualifiers_under (row : String) (c : Connective) (parts : List Predicate) :
    ((under c parts).expr row).qualifiers =
      parts.flatMap fun part => (part.expr row).qualifiers := by
  have all : Expr.qualifiersAll (exprs row parts) =
      parts.flatMap fun part => (part.expr row).qualifiers := by
    induction parts with
    | nil => rfl
    | cons part parts ih => rw [exprs, Expr.qualifiersAll, ih, List.flatMap_cons]
  rw [← all]
  cases c <;> rfl

/-- A condition uses the row it is about and the targets of its intersections. -/
theorem mem_of_mem_qualifiers {relation : String} (used : relation ∈ (p.expr row).qualifiers) :
    relation = row ∨ relation ∈ p.mentions := by
  induction p using tree_induction with
  | connective c parts ih =>
      rw [qualifiers_under] at used
      obtain ⟨part, member, inner⟩ := List.mem_flatMap.1 used
      refine (ih part member inner).imp_right fun mentioned => ?_
      rw [mentions_under]
      exact List.mem_flatMap.2 ⟨part, member, mentioned⟩
  | hasTag key => exact Or.inl (List.mem_singleton.1 used)
  | lacksTag key => exact Or.inl (List.mem_singleton.1 used)
  | tagEquals key value => exact Or.inl (List.mem_singleton.1 used)
  | tagDiffers key value => exact Or.inl (List.mem_singleton.1 used)
  | intersects target => exact List.mem_cons.1 used

theorem qualifiersIn_joinWith (c : Connective) (texts : List String) :
    qualifiersIn (Text.joinWith c.word texts).toList =
      texts.flatMap fun s => qualifiersIn s.toList := by
  have opens : c.word.toList.head?.all isGap := by cases c <;> decide
  have last : c.word.toList.getLast? = some ' ' := by cases c <;> decide
  have plain : qualifiersIn c.word.toList = [] := by cases c <;> decide
  fun_induction Text.joinWith c.word texts with
  | case1 => rfl
  | case2 s => exact (List.append_nil _).symm
  | case3 s next rest ih =>
      have closes : (s.toList ++ c.word.toList).getLast?.all isGap := by
        rw [List.getLast?_append, last, Option.some_or]
        decide
      rw [String.toList_append, String.toList_append, qualifiersIn_append (Or.inl closes),
        qualifiersIn_append (Or.inr opens), plain, ih, List.append_nil]
      rfl

/-- The text of a condition names what the condition uses, in the same order. -/
theorem qualifiersIn_shown (named : ∀ name ∈ p.mentions, Sql.isIdentifier name) :
    qualifiersIn p.shown.toList = (p.expr sourceAlias).qualifiers := by
  induction p using tree_induction with
  | connective c parts ih =>
      have inner : (parts.map shown).flatMap (fun s => qualifiersIn s.toList) =
          parts.flatMap fun part => (part.expr sourceAlias).qualifiers := by
        rw [List.flatMap_map]
        exact List.flatMap_congr fun part member => ih part member (named_of_mem named member)
      rw [toList_shown_under, ← List.singleton_append, qualifiersIn_append (Or.inl (by decide)),
        qualifiersIn_append (Or.inr (by decide)), qualifiersIn_joinWith, inner, qualifiers_under]
      exact List.append_nil _
  | hasTag key =>
      change qualifiersIn (sourceAlias ++ ".tags ? '").toList = [sourceAlias]
      decide
  | lacksTag key =>
      change qualifiersIn ("NOT " ++ sourceAlias ++ ".tags ? '").toList = [sourceAlias]
      decide
  | tagEquals key value =>
      change qualifiersIn (sourceAlias ++ ".tags->' = '").toList = [sourceAlias]
      decide
  | tagDiffers key value =>
      change qualifiersIn (sourceAlias ++ ".tags->' != '").toList = [sourceAlias]
      decide
  | intersects target =>
      have front : qualifiersIn ("ST_Intersects(" ++ sourceAlias ++ ".geom, ").toList =
          [sourceAlias] := by decide
      have text : (intersects target).shown.toList =
          ("ST_Intersects(" ++ sourceAlias ++ ".geom, ").toList ++
            ((target ++ ".geom").toList ++ [')']) := by
        simp [shown_intersects]
      rw [text, qualifiersIn_append (Or.inl (by decide)), qualifiersIn_append (Or.inr (by decide)),
        front, Sql.qualifiersIn_column (named target (by simp [mentions]))]
      rfl

/-! ## Targets -/

/-- What the root of a tree intersects with. -/
def target? : Predicate → Option String
  | .intersects target => some target
  | _ => none

theorem filterMap_target? (p : Predicate) : p.subtrees.filterMap target? = p.mentions := by
  induction p using tree_induction with
  | connective c parts ih =>
      have root : target? (under c parts) = none := by cases c <;> rfl
      rw [subtrees_under, mentions_under, List.filterMap_cons_none root, List.filterMap_flatMap]
      exact List.flatMap_congr ih
  | hasTag key => rfl
  | lacksTag key => rfl
  | tagEquals key value => rfl
  | tagDiffers key value => rfl
  | intersects target => rfl

/-- **The targets of a tree are the first occurrences** among what its nodes intersect with,
from left to right. -/
theorem firstOccurrences_targets (p : Predicate) :
    FirstOccurrences (p.subtrees.filterMap target?) p.targets := by
  rw [filterMap_target?]
  exact firstOccurrences_foldl p.mentions

end Predicate

/-! ## Rows that a clause binds -/

namespace Sql

/-- The name that the rows of a relation are bound to, where `rest` is what stands behind the
relation: its alias, or else its own name. -/
def rowOf (name : String) (rest : List String) : String :=
  match rest with
  | "AS" :: row :: _ => row
  | _ => name

/-- The names that are bound behind the marks. -/
def rowsOf : List String → List String
  | word :: name :: rest =>
      if isMark word then rowOf name rest :: rowsOf rest else rowsOf (name :: rest)
  | _ => []

/-- The names that the clauses of a text bind, outside of its literals. -/
def boundRows (sql : String) : List String :=
  rowsOf (words (exposed .outside sql.toList))

theorem rowsOf_mark {word : String} (mark : isMark word) (name : String) (rest : List String) :
    rowsOf (word :: name :: rest) = rowOf name rest :: rowsOf rest := by
  rw [rowsOf, if_pos mark]

theorem rowsOf_skip {word : String} (other : isMark word = false) (rest : List String) :
    rowsOf (word :: rest) = rowsOf rest := by
  cases rest with
  | nil => rfl
  | cons name more => rw [rowsOf, other, if_neg Bool.false_ne_true]

theorem rowOf_eq_self {name : String} {rest : List String} (own : rest.head? ≠ some "AS") :
    rowOf name rest = name := by
  unfold rowOf
  split
  · exact absurd rfl own
  · rfl

theorem rowsOf_of_silent {text : List Char} (still : silent text) : rowsOf (words text) = [] := by
  rw [silent, List.all_eq_true] at still
  generalize words text = all at still
  induction all with
  | nil => rfl
  | cons word rest ih =>
      have here : isMark word = false := by simpa using still word List.mem_cons_self
      rw [rowsOf_skip here]
      exact ih fun other member => still other (List.mem_cons_of_mem _ member)

/-- Every joined relation binds its own name. -/
theorem rowsOf_joins (joins : List String) {rest : List String} (own : rest.head? ≠ some "AS") :
    rowsOf ((joins.flatMap fun join => ["CROSS", "JOIN", join]) ++ rest) =
      joins ++ rowsOf rest := by
  induction joins with
  | nil => rfl
  | cons join joins ih =>
      have next : ((joins.flatMap fun join => ["CROSS", "JOIN", join]) ++ rest).head? ≠
          some "AS" := by
        cases joins with
        | nil => exact own
        | cons => simp
      rw [List.flatMap_cons, List.append_assoc, List.cons_append, List.cons_append,
        List.singleton_append, rowsOf_skip (by decide), rowsOf_mark (by decide), rowOf_eq_self next,
        ih, List.cons_append]

end Sql

/-- No clause of a filter has a column. -/
theorem qualifiersIn_fromClause {source : String} {joins : List String}
    (read : Sql.isIdentifier source) (names : ∀ join ∈ joins, Sql.isIdentifier join) :
    Sql.qualifiersIn (fromClause source joins).toList = [] := by
  rw [Sql.qualifiersIn, (words_fromClause read names).2, List.flatMap_eq_nil_iff]
  simp only [List.forall_mem_cons, List.mem_flatMap]
  refine ⟨by decide, Sql.qualifiersOf_name read, by decide, by decide, ?_⟩
  rintro word ⟨join, member, among⟩
  simp only [List.mem_cons, List.not_mem_nil, or_false] at among
  rcases among with rfl | rfl | rfl
  · decide
  · decide
  · exact Sql.qualifiersOf_name (names word member)

/-! ## The query of a filter -/

namespace Request

open Sql (Shows)

variable {r : Request} {predicate : Predicate}

/-- A condition shows its text up to the literals, and no mark. -/
theorem shows_expr (named : ∀ join ∈ predicate.targets, Sql.isIdentifier join) :
    Shows (predicate.expr sourceAlias).text predicate.shown.toList ∧
      Sql.silent predicate.shown.toList := by
  have mentioned : ∀ name ∈ predicate.mentions, Sql.isIdentifier name := fun name member =>
    named name (Predicate.mem_targets_iff.2 member)
  have shows := Predicate.shows_condition mentioned
  have still := (Predicate.unmarked_condition predicate mentioned).still
  rw [Predicate.text_expr]
  rw [shows.shown] at still
  exact ⟨shows, still⟩

section Text

variable (source : Sql.isIdentifier r.source)
  (named : ∀ join ∈ predicate.targets, Sql.isIdentifier join)

include source named

/-- What the query of a filter shows: its clause, and its condition up to the literals. -/
theorem exposed_query :
    Sql.exposed .outside (r.query predicate).text.toList =
      (fromClause r.source predicate.targets).toList ++
        ("\nWHERE ".toList ++ predicate.shown.toList) := by
  have clause := Shows.of_bare (words_fromClause source named).1
  have keyword : Sql.bare "\nWHERE ".toList := by decide
  have exposed := ((clause.append_bare keyword).append (shows_expr named).1).shown
  rwa [List.append_assoc] at exposed

/-- **The clause of a filter** binds the alias of its source, and the rows of every joined
relation to the name of the relation. -/
theorem boundRows_query :
    Sql.boundRows (r.query predicate).text = sourceAlias :: predicate.targets := by
  have behind : Sql.words ("\nWHERE ".toList ++ predicate.shown.toList) =
      "WHERE" :: Sql.words predicate.shown.toList := by
    rw [Sql.words_append (Or.inl (by decide))]
    rfl
  have keyword : ("WHERE" :: Sql.words predicate.shown.toList).head? ≠ some "AS" := by
    rw [List.head?_cons]
    decide
  have clause : Sql.words (Sql.exposed .outside (r.query predicate).text.toList) =
      "FROM" :: r.source :: "AS" :: sourceAlias ::
        ((predicate.targets.flatMap fun join => ["CROSS", "JOIN", join]) ++
          "WHERE" :: Sql.words predicate.shown.toList) := by
    rw [exposed_query source named, Sql.words_append (Or.inr (opens_where _)), behind,
      (words_fromClause source named).2]
    simp only [List.cons_append]
  rw [Sql.boundRows, clause, Sql.rowsOf_mark (by decide), Sql.rowsOf_skip (by decide),
    Sql.rowsOf_skip (by decide), Sql.rowsOf_joins _ keyword, Sql.rowsOf_skip (by decide),
    Sql.rowsOf_of_silent (shows_expr named).2, List.append_nil]
  rfl

/-- **The text of a query** names before its columns what its condition uses. -/
theorem qualifiers_query :
    Sql.qualifiers (r.query predicate).text = (predicate.expr sourceAlias).qualifiers := by
  have condition := Predicate.qualifiersIn_shown (p := predicate) fun name member =>
    named name (Predicate.mem_targets_iff.2 member)
  rw [Sql.qualifiers, exposed_query source named, Sql.qualifiersIn_append (Or.inr (opens_where _)),
    Sql.qualifiersIn_append (Or.inl (by decide)), condition, qualifiersIn_fromClause source named,
    List.nil_append]
  rfl

end Text

/-- **A filter is scoped.**  Whatever its predicate is, the rows of its query are bound to
names that differ, its joins are the targets of the intersections in the order in which they
first occur, and its condition uses only what is bound; and where the joins are identifiers,
the text of the query binds and uses just these names. -/
theorem filter_is_scoped {name source : String} {feature : FeatureKind} {geometry : GeometryKind}
    (made : make name feature geometry source (some predicate) none = .ok r) :
    (∀ isSink, ∃ columns, r.sql isSink = .ok (columns ++ (r.query predicate).text ++ ";\n")) ∧
      (sourceAlias :: r.joins).Nodup ∧
      FirstOccurrences (predicate.subtrees.filterMap Predicate.target?) r.joins ∧
      (∀ relation ∈ (predicate.expr sourceAlias).qualifiers, relation ∈ sourceAlias :: r.joins) ∧
      ((∀ join ∈ r.joins, Sql.isIdentifier join) →
        Sql.boundRows (r.query predicate).text = sourceAlias :: r.joins ∧
        Sql.qualifiers (r.query predicate).text = (predicate.expr sourceAlias).qualifiers) := by
  obtain ⟨-, read, -, operation, accepted, rfl⟩ := make_eq_ok_iff.1 made
  obtain ⟨free, rfl⟩ := makeFilter_eq_ok_iff.1 accepted
  have first := predicate.firstOccurrences_targets
  refine ⟨exists_sql_eq rfl, List.nodup_cons.2 ⟨free, first.distinct⟩, first, ?_, ?_⟩
  · intro relation used
    rcases Predicate.mem_of_mem_qualifiers used with rfl | mentioned
    · exact List.mem_cons_self
    · exact List.mem_cons_of_mem _ (Predicate.mem_targets_iff.2 mentioned)
  · intro named
    exact ⟨boundRows_query read named, qualifiers_query read named⟩

namespace Example

theorem crossing_is_scoped :
    make "hit" .node .point "nodes" (some crossingPredicate) none = .ok crossing ∧
      Sql.boundRows (crossing.query crossingPredicate).text = ["el", "zone", "road"] ∧
      Sql.qualifiers (crossing.query crossingPredicate).text =
        ["el", "zone", "el", "road", "el", "zone", "el"] ∧
      FirstOccurrences ["zone", "road", "zone"] ["zone", "road"] := by
  have made : make "hit" .node .point "nodes" (some crossingPredicate) none = .ok crossing :=
    make_eq_ok_iff.2 ⟨by decide, by decide, by decide, .filter (.of crossingPredicate),
      makeOperation_eq_ok_iff.2 (Or.inl ⟨_, rfl, rfl, by decide, rfl⟩), rfl⟩
  obtain ⟨-, -, first, -, text⟩ := filter_is_scoped made
  obtain ⟨bound, used⟩ := text (by decide)
  exact ⟨made, bound, used, first⟩

end Example

end Request

end MapAudit
