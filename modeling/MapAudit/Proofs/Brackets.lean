import MapAudit.Proofs.Effect
import MapAudit.Proofs.Reading
import MapAudit.Proofs.UniqueReading
import Mathlib.Algebra.BigOperators.Group.List.Basic
import Mathlib.Algebra.GroupWithZero.Nat

/-!
# The brackets of a condition

Outside of its literals, a condition has one pair of brackets for every connective and one
for every intersection, whatever brackets and quotes its tags hold, and the pairs are
nested.  `Predicate.shown` is the condition with every literal cut down to its opening
quote, and the only place where literals have to be read (`shows_condition`); the rest
goes by `Predicate.tree_induction` over a text without literals.
-/

namespace MapAudit

set_option autoImplicit false

/-! ## Balanced texts -/

namespace Sql

/-- No beginning of the text closes a bracket that it did not open, and the whole text
closes all of them. -/
structure Balanced (text : List Char) : Prop where
  opened : ∀ before, before <+: text → before.count ')' ≤ before.count '('
  closed : text.count '(' = text.count ')'

theorem balanced_of_none {text : List Char} (opening : '(' ∉ text) (closing : ')' ∉ text) :
    Balanced text where
  opened before begins := by
    rw [List.count_eq_zero.2 fun member => closing (begins.subset member)]
    exact Nat.zero_le _
  closed := by
    rw [List.count_eq_zero.2 opening, List.count_eq_zero.2 closing]

/-- Balanced texts one after another are balanced. -/
theorem Balanced.append {text more : List Char} (first : Balanced text)
    (second : Balanced more) : Balanced (text ++ more) where
  opened before begins := by
    rcases List.prefix_or_prefix_of_prefix begins (List.prefix_append text more) with
      inFirst | ⟨tail, rfl⟩
    · exact first.opened before inFirst
    · have inSecond := second.opened tail ((List.prefix_append_right_inj text).1 begins)
      rw [List.count_append, List.count_append, first.closed]
      omega
  closed := by
    rw [List.count_append, List.count_append, first.closed, second.closed]

/-- A balanced text between brackets is balanced: until the last bracket, the first one is
open. -/
theorem Balanced.enclosed {text : List Char} (inner : Balanced text) :
    Balanced ('(' :: (text ++ [')'])) where
  opened before begins := by
    rcases List.prefix_cons_iff.1 begins with rfl | ⟨tail, rfl, behind⟩
    · exact Nat.le_refl _
    · have brackets : '(' ≠ ')' := by decide
      rw [List.count_cons_self, List.count_cons_of_ne brackets]
      rcases List.prefix_concat_iff.1 behind with rfl | inside
      · have closed := inner.closed
        simp [closed]
      · exact Nat.le_succ_of_le (inner.opened tail inside)
  closed := by
    have closed := inner.closed
    simp [closed]

theorem balanced_joinWith {separator : String} (between : Balanced separator.toList)
    {texts : List String} (each : ∀ s ∈ texts, Balanced s.toList) :
    Balanced (Text.joinWith separator texts).toList := by
  fun_induction Text.joinWith separator texts with
  | case1 => exact balanced_of_none (by decide) (by decide)
  | case2 s => exact each s List.mem_cons_self
  | case3 s next rest ih =>
      have later := ih fun t member => each t (List.mem_cons_of_mem _ member)
      rw [String.toList_append, String.toList_append]
      exact ((each s List.mem_cons_self).append between).append later

end Sql

theorem Text.count_joinWith {c : Char} {separator : String} (absent : c ∉ separator.toList)
    (texts : List String) :
    (joinWith separator texts).toList.count c = (texts.map fun s => s.toList.count c).sum := by
  fun_induction joinWith separator texts with
  | case1 => rfl
  | case2 s => simp
  | case3 s next rest ih =>
      simp only [String.toList_append, List.count_append, List.count_eq_zero.2 absent, ih,
        List.map_cons, List.sum_cons, Nat.add_zero]

namespace Predicate

open Sql (bare Shows Balanced)

/-! ## Trees under connectives -/

/-- To show something of every tree, it may be assumed of the parts of a connective. -/
theorem tree_induction {motive : Predicate → Prop}
    (connective : ∀ c parts, (∀ part ∈ parts, motive part) → motive (under c parts))
    (hasTag : ∀ key, motive (.hasTag key)) (lacksTag : ∀ key, motive (.lacksTag key))
    (tagEquals : ∀ key value, motive (.tagEquals key value))
    (tagDiffers : ∀ key value, motive (.tagDiffers key value))
    (intersects : ∀ target, motive (.intersects target)) (p : Predicate) : motive p := by
  -- The recursor also goes over lists of parts: what is shown of a list is shown of its members.
  refine @Predicate.rec motive (fun parts => ∀ part ∈ parts, motive part) (connective .and)
    (connective .or) hasTag lacksTag tagEquals tagDiffers intersects ?_ ?_ p
  · intro part member
    cases member
  · intro first rest here later part member
    rcases List.mem_cons.1 member with rfl | behind
    · exact here
    · exact later part behind

theorem conditions_eq_map (row : String) (parts : List Predicate) :
    conditions row parts = parts.map (condition row) := by
  induction parts with
  | nil => rfl
  | cons part parts ih => rw [conditions, ih, List.map_cons]

/-- Both connectives are written alike, but for the word between their parts. -/
theorem condition_under (row : String) (c : Connective) (parts : List Predicate) :
    (under c parts).condition row =
      "(" ++ Text.joinWith c.word (parts.map (condition row)) ++ ")" := by
  rw [← conditions_eq_map]
  cases c <;> rfl

theorem subtreesAll_eq_flatMap (parts : List Predicate) :
    subtreesAll parts = parts.flatMap subtrees := by
  induction parts with
  | nil => rfl
  | cons part parts ih => rw [subtreesAll, ih, List.flatMap_cons]

theorem subtrees_under (c : Connective) (parts : List Predicate) :
    (under c parts).subtrees = under c parts :: parts.flatMap subtrees := by
  rw [← subtreesAll_eq_flatMap]
  cases c <;> rfl

theorem mentions_under (c : Connective) (parts : List Predicate) :
    (under c parts).mentions = parts.flatMap mentions := by
  have all : mentionsAll parts = parts.flatMap mentions := by
    induction parts with
    | nil => rfl
    | cons part parts ih => rw [mentionsAll, ih, List.flatMap_cons]
  rw [← all]
  cases c <;> rfl

theorem named_of_mem {c : Connective} {parts : List Predicate}
    (named : ∀ name ∈ (under c parts).mentions, Sql.isIdentifier name) {part : Predicate}
    (member : part ∈ parts) : ∀ name ∈ part.mentions, Sql.isIdentifier name := by
  intro name mentioned
  exact named name (mentions_under c parts ▸ List.mem_flatMap.2 ⟨part, member, mentioned⟩)

/-! ## What a condition shows -/

variable {p : Predicate}

mutual

/-- The condition of a predicate outside of its literals, each literal shown by its opening
quote. -/
def shown : Predicate → String
  | .all parts => "(" ++ Text.joinWith (Connective.word .and) (shownAll parts) ++ ")"
  | .any parts => "(" ++ Text.joinWith (Connective.word .or) (shownAll parts) ++ ")"
  | .hasTag _ => sourceAlias ++ ".tags ? '"
  | .lacksTag _ => "NOT " ++ sourceAlias ++ ".tags ? '"
  | .tagEquals _ _ => sourceAlias ++ ".tags->' = '"
  | .tagDiffers _ _ => sourceAlias ++ ".tags->' != '"
  | .intersects target => "ST_Intersects(" ++ sourceAlias ++ ".geom, " ++ target ++ ".geom)"

def shownAll : List Predicate → List String
  | [] => []
  | part :: parts => shown part :: shownAll parts

end

theorem shown_under (c : Connective) (parts : List Predicate) :
    (under c parts).shown = "(" ++ Text.joinWith c.word (parts.map shown) ++ ")" := by
  have all : shownAll parts = parts.map shown := by
    induction parts with
    | nil => rfl
    | cons part parts ih => rw [shownAll, ih, List.map_cons]
  rw [← all]
  cases c <;> rfl

theorem shown_intersects (target : String) :
    (intersects target).shown =
      "ST_Intersects(" ++ sourceAlias ++ ".geom, " ++ target ++ ".geom)" := rfl

theorem shows_joinWith (c : Connective) {parts : List Predicate}
    (each : ∀ part ∈ parts, Shows (part.condition sourceAlias) part.shown.toList) :
    Shows (Text.joinWith c.word (parts.map (condition sourceAlias)))
      (Text.joinWith c.word (parts.map shown)).toList := by
  induction parts with
  | nil =>
      have nothing : bare "".toList := by decide
      exact Shows.of_bare nothing
  | cons part parts ih =>
      have first := each part List.mem_cons_self
      have later := ih fun other member => each other (List.mem_cons_of_mem _ member)
      cases parts with
      | nil => exact first
      | cons next rest =>
          simp only [List.map_cons, Text.joinWith_cons_cons, String.toList_append]
          exact (first.append_bare (bare_word c)).append later

/-- **A condition shows its text up to the literals**, whatever its tags are. -/
theorem shows_condition (named : ∀ name ∈ p.mentions, Sql.isIdentifier name) :
    Shows (p.condition sourceAlias) p.shown.toList := by
  induction p using tree_induction with
  | connective c parts ih =>
      have inner : Shows (Text.joinWith c.word (parts.map (condition sourceAlias)))
          (Text.joinWith c.word (parts.map shown)).toList :=
        shows_joinWith c fun part member => ih part member (named_of_mem named member)
      rw [condition_under, shown_under, String.toList_append, String.toList_append]
      exact ((Shows.of_bare (by decide)).append inner).append_bare (by decide)
  | hasTag key =>
      have text : sourceAlias.toList ++ ".tags ? ".toList ++ [Sql.quoteMark] =
          (sourceAlias ++ ".tags ? '").toList := by decide
      exact ((Shows.of_bare bare_sourceAlias).append_quote (by decide) (by decide) key).congr text
  | lacksTag key =>
      have text : "NOT ".toList ++ sourceAlias.toList ++ ".tags ? ".toList ++ [Sql.quoteMark] =
          ("NOT " ++ sourceAlias ++ ".tags ? '").toList := by decide
      exact (((Shows.of_bare (by decide)).append_bare bare_sourceAlias).append_quote
        (by decide) (by decide) key).congr text
  | tagEquals key value =>
      have text : sourceAlias.toList ++ ".tags->".toList ++ [Sql.quoteMark] ++ " = ".toList ++
          [Sql.quoteMark] = (sourceAlias ++ ".tags->' = '").toList := by decide
      exact (((Shows.of_bare bare_sourceAlias).append_quote (by decide) (by decide)
        key).append_quote (by decide) (by decide) value).congr text
  | tagDiffers key value =>
      have text : sourceAlias.toList ++ ".tags->".toList ++ [Sql.quoteMark] ++ " != ".toList ++
          [Sql.quoteMark] = (sourceAlias ++ ".tags->' != '").toList := by decide
      exact (((Shows.of_bare bare_sourceAlias).append_quote (by decide) (by decide)
        key).append_quote (by decide) (by decide) value).congr text
  | intersects target =>
      have plain : bare target.toList :=
        Sql.bare_of_isIdentifier (named target (by simp [mentions]))
      simp only [shown_intersects, String.toList_append]
      exact ((((Shows.of_bare (by decide)).append_bare bare_sourceAlias).append_bare
        (by decide)).append_bare plain).append_bare (by decide)

/-! ## Brackets -/

def isIntersection : Predicate → Bool
  | .intersects _ => true
  | _ => false

/-- One for every connective and one for every intersection of a tree. -/
def brackets (p : Predicate) : Nat :=
  p.subtrees.countP isConnective + p.subtrees.countP isIntersection

theorem brackets_under (c : Connective) (parts : List Predicate) :
    (under c parts).brackets = (parts.map brackets).sum + 1 := by
  have connective : isConnective (under c parts) = true := by cases c <;> rfl
  have intersection : isIntersection (under c parts) = false := by cases c <;> rfl
  have inner : (parts.map brackets).sum =
      (parts.flatMap subtrees).countP isConnective +
        (parts.flatMap subtrees).countP isIntersection := by
    rw [List.countP_flatMap, List.countP_flatMap, ← List.sum_map_add]
    rfl
  rw [brackets, subtrees_under, List.countP_cons_of_pos connective,
    List.countP_cons_of_neg (by simp [intersection]), inner]
  omega

theorem toList_shown_under (c : Connective) (parts : List Predicate) :
    (under c parts).shown.toList =
      '(' :: ((Text.joinWith c.word (parts.map shown)).toList ++ [')']) := by
  rw [shown_under, String.toList_append, String.toList_append]
  rfl

/-- What stands between the brackets of an intersection. -/
def meeting (target : String) : List Char :=
  sourceAlias.toList ++ ".geom, ".toList ++ target.toList ++ ".geom".toList

theorem toList_shown_intersects (target : String) :
    (intersects target).shown.toList =
      "ST_Intersects".toList ++ '(' :: (meeting target ++ [')']) := by
  simp [shown_intersects, meeting]

theorem not_mem_meeting {target : String} (named : Sql.isIdentifier target) {c : Char}
    (bracket : c = '(' ∨ c = ')') : c ∉ meeting target := by
  intro member
  simp only [meeting, List.mem_append] at member
  rcases member with ((row | column) | name) | column
  · rcases bracket with rfl | rfl <;> revert row <;> decide
  · rcases bracket with rfl | rfl <;> revert column <;> decide
  · have part := Sql.isIdentifierPart_of_mem named c name
    rcases bracket with rfl | rfl <;> revert part <;> decide
  · rcases bracket with rfl | rfl <;> revert column <;> decide

/-- **What a condition shows is balanced**, whatever its tags hold. -/
theorem balanced_shown (named : ∀ name ∈ p.mentions, Sql.isIdentifier name) :
    Balanced p.shown.toList := by
  induction p using tree_induction with
  | connective c parts ih =>
      have word : Balanced c.word.toList := by
        cases c <;> exact Sql.balanced_of_none (by decide) (by decide)
      rw [toList_shown_under]
      refine (Sql.balanced_joinWith word fun text member => ?_).enclosed
      obtain ⟨part, listed, rfl⟩ := List.mem_map.1 member
      exact ih part listed (named_of_mem named listed)
  | hasTag key =>
      change Balanced (sourceAlias ++ ".tags ? '").toList
      exact Sql.balanced_of_none (by decide) (by decide)
  | lacksTag key =>
      change Balanced ("NOT " ++ sourceAlias ++ ".tags ? '").toList
      exact Sql.balanced_of_none (by decide) (by decide)
  | tagEquals key value =>
      change Balanced (sourceAlias ++ ".tags->' = '").toList
      exact Sql.balanced_of_none (by decide) (by decide)
  | tagDiffers key value =>
      change Balanced (sourceAlias ++ ".tags->' != '").toList
      exact Sql.balanced_of_none (by decide) (by decide)
  | intersects target =>
      have name : Sql.isIdentifier target := named target (by simp [mentions])
      have inner : Balanced (meeting target) :=
        Sql.balanced_of_none (not_mem_meeting name (Or.inl rfl)) (not_mem_meeting name (Or.inr rfl))
      have function : Balanced "ST_Intersects".toList :=
        Sql.balanced_of_none (by decide) (by decide)
      rw [toList_shown_intersects]
      exact function.append inner.enclosed

/-- A condition shows one bracket for each connective and each intersection. -/
theorem count_shown (named : ∀ name ∈ p.mentions, Sql.isIdentifier name) :
    p.shown.toList.count '(' = p.brackets := by
  induction p using tree_induction with
  | connective c parts ih =>
      have word : '(' ∉ c.word.toList := by cases c <;> decide
      have each : (parts.map shown).map (fun s => s.toList.count '(') = parts.map brackets := by
        rw [List.map_map]
        exact List.map_congr_left fun part listed => ih part listed (named_of_mem named listed)
      rw [toList_shown_under, brackets_under, List.count_cons_self, List.count_append,
        Text.count_joinWith word, each]
      rfl
  | hasTag key => exact (by decide : (sourceAlias ++ ".tags ? '").toList.count '(' = 0)
  | lacksTag key => exact (by decide : ("NOT " ++ sourceAlias ++ ".tags ? '").toList.count '(' = 0)
  | tagEquals key value => exact (by decide : (sourceAlias ++ ".tags->' = '").toList.count '(' = 0)
  | tagDiffers key value =>
      exact (by decide : (sourceAlias ++ ".tags->' != '").toList.count '(' = 0)
  | intersects target =>
      have name : Sql.isIdentifier target := named target (by simp [mentions])
      have inner : (meeting target).count '(' = 0 :=
        List.count_eq_zero.2 (not_mem_meeting name (Or.inl rfl))
      rw [toList_shown_intersects, List.count_append, List.count_cons_self, List.count_append,
        inner]
      rfl

/-- **The brackets of a condition are nested, one pair for each connective and each
intersection.**  Brackets inside of literals do not count: no beginning of the condition
closes more of the others than it opens, and there are as many of both kinds as connectives and
intersections.  So a tree of connectives over tests for a tag has two for each connective,
whatever its keys hold. -/
theorem brackets_of_condition (named : ∀ target, .intersects target ∈ p.subtrees →
      Sql.isIdentifier target) :
    (∀ before, before <+: (p.condition sourceAlias).toList →
      (Sql.exposed .outside before).count ')' ≤ (Sql.exposed .outside before).count '(') ∧
    (Sql.exposed .outside (p.condition sourceAlias).toList).count '(' =
      p.subtrees.countP isConnective + p.subtrees.countP isIntersection ∧
    (Sql.exposed .outside (p.condition sourceAlias).toList).count ')' =
      p.subtrees.countP isConnective + p.subtrees.countP isIntersection ∧
    ((∀ q ∈ p.subtrees, q.isConnective ∨ ∃ key, q = .hasTag key) →
      (Sql.exposed .outside (p.condition sourceAlias).toList).count '(' +
          (Sql.exposed .outside (p.condition sourceAlias).toList).count ')' =
        2 * p.subtrees.countP isConnective) := by
  have names : ∀ name ∈ p.mentions, Sql.isIdentifier name := fun name mentioned =>
    named name ((intersects_mem_subtrees_iff p).2 mentioned)
  have shown := (shows_condition names).shown
  have balanced := balanced_shown names
  have opening := count_shown names
  have closing := balanced.closed.symm.trans opening
  rw [← shown] at balanced opening closing
  refine ⟨fun before begins => ?_, opening, closing, fun plain => ?_⟩
  · obtain ⟨after, whole⟩ := begins
    refine balanced.opened _ ?_
    rw [← whole, Sql.exposed_append]
    exact List.prefix_append _ _
  · have none : p.subtrees.countP isIntersection = 0 := by
      refine List.countP_eq_zero.2 fun q member => ?_
      rcases plain q member with connective | ⟨key, rfl⟩
      · cases q <;> simp_all [isConnective, isIntersection]
      · simp [isIntersection]
    rw [opening, closing, brackets, none]
    omega

namespace Example

/-- Keys and values that would close brackets and literals, an empty connective, and a zone
that is met twice. -/
def crowded : Predicate :=
  .all [.any [.hasTag "a') OR (", .tagEquals "b(" "''))"], .intersects "zone",
    .any [.all [], .intersects "zone"]]

end Example

theorem brackets_of_crowded :
    (∀ target, .intersects target ∈ Example.crowded.subtrees → Sql.isIdentifier target) ∧
      (Sql.exposed .outside (Example.crowded.condition sourceAlias).toList).count '(' = 6 ∧
      (Sql.exposed .outside (Example.crowded.condition sourceAlias).toList).count ')' = 6 := by
  have named : ∀ target, .intersects target ∈ Example.crowded.subtrees →
      Sql.isIdentifier target := by
    intro target member
    rw [intersects_mem_subtrees_iff] at member
    have zone : target = "zone" := by simpa [Example.crowded, mentions, mentionsAll] using member
    subst zone
    decide
  obtain ⟨-, opening, closing, -⟩ := brackets_of_condition named
  exact ⟨named, opening, closing⟩

end Predicate

end MapAudit
