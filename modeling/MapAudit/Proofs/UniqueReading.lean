import MapAudit.Proofs.Scan
import MapAudit.Request

/-!
# A condition can be read in one way only

Two trees are written as the same condition exactly when they are one tree up to
the word of the connectives that have a single part, which the text does not show.
The texts of tags have no say in that, whatever quotes, parentheses and connectives
they hold.

What carries the induction is that a condition also shows where it ends: whatever
follows it, the text fixes both the tree and what follows (`Readable`).
-/

namespace MapAudit

set_option autoImplicit false

namespace Sql

/-! ## Literals and identifiers -/

/-- A quoted text is read back whole, and what follows it is left. -/
theorem scanLiteral_doubleQuotes (text : List Char) {rest : List Char}
    (ends : rest.head? ≠ some quoteMark) :
    scanLiteral (doubleQuotes text ++ quoteMark :: rest) = some (text, rest) := by
  induction text with
  | nil =>
      change scanLiteral (quoteMark :: rest) = _
      cases rest with
      | nil => rfl
      | cons c more =>
          have single : c ≠ '\x27' := fun same => ends (by simp [same, quoteMark])
          simp [scanLiteral, quoteMark, single]
  | cons c text ih =>
      by_cases doubled : c = '\x27'
      · simp [doubleQuotes, doubled, scanLiteral, ih]
      · simp [doubleQuotes, doubled, scanLiteral, ih]

/-- A literal fixes its value and where it ends. -/
theorem quote_append_inj {s t : String} {rest rest' : List Char}
    (ends : rest.head? ≠ some quoteMark) (ends' : rest'.head? ≠ some quoteMark)
    (same : (quote s).toList ++ rest = (quote t).toList ++ rest') : s = t ∧ rest = rest' := by
  rw [toList_quote, toList_quote, List.cons_append, List.cons_append, List.append_assoc,
    List.append_assoc, List.cons.injEq] at same
  have left := scanLiteral_doubleQuotes s.toList ends
  have right := scanLiteral_doubleQuotes t.toList ends'
  have read : some (s.toList, rest) = some (t.toList, rest') := by
    rw [← left, ← right]
    exact congrArg scanLiteral same.2
  simp only [Option.some.injEq, Prod.mk.injEq, String.toList_inj] at read
  exact read

/-- Identifiers before a period are fixed by it. -/
theorem identifier_append_inj {s t : String} {rest rest' : List Char} (named : isIdentifier s)
    (named' : isIdentifier t) (same : s.toList ++ '.' :: rest = t.toList ++ '.' :: rest') :
    s = t ∧ rest = rest' := by
  have word : ∀ {u : String} {after : List Char}, isIdentifier u →
      (u.toList ++ '.' :: after).span isIdentifierPart = (u.toList, '.' :: after) := by
    intro u after identifier
    have stops : isIdentifierPart '.' = false := by decide
    rw [List.span_eq_takeWhile_dropWhile,
      List.takeWhile_append_of_pos (isIdentifierPart_of_mem identifier),
      List.dropWhile_append_of_pos (isIdentifierPart_of_mem identifier)]
    simp [stops]
  have read := (word named).symm.trans ((congrArg _ same).trans (word named'))
  simpa [String.toList_inj] using read

end Sql

namespace Predicate

/-! ## Trees -/

mutual

/-- What the checked constructors ensure: every connective has a part, and every
intersection is with an identifier.  The texts of tags are free. -/
def wellFormed : Predicate → Bool
  | .all parts => !parts.isEmpty && wellFormedAll parts
  | .any parts => !parts.isEmpty && wellFormedAll parts
  | .intersects target => Sql.isIdentifier target
  | .hasTag _ => true
  | .lacksTag _ => true
  | .tagEquals _ _ => true
  | .tagDiffers _ _ => true

def wellFormedAll : List Predicate → Bool
  | [] => true
  | part :: parts => wellFormed part && wellFormedAll parts

end

/-- Parts under a connective. -/
def under : Connective → List Predicate → Predicate
  | .and, parts => .all parts
  | .or, parts => .any parts

/-- Parts under a connective, where one connective stands for both over a single
part. -/
def group : Connective → List Predicate → Predicate
  | _, [part] => .all [part]
  | c, parts => under c parts

mutual

/-- The tree in which every connective over a single part is the same one. -/
def canonical : Predicate → Predicate
  | .all parts => group .and (canonicals parts)
  | .any parts => group .or (canonicals parts)
  | .hasTag key => .hasTag key
  | .lacksTag key => .lacksTag key
  | .tagEquals key value => .tagEquals key value
  | .tagDiffers key value => .tagDiffers key value
  | .intersects target => .intersects target

def canonicals : List Predicate → List Predicate
  | [] => []
  | part :: parts => canonical part :: canonicals parts

end

/-! ## What a condition begins with -/

/-- The ways in which a condition begins. -/
inductive Lead where
  | group
  | has
  | lacks
  | compares
  | meets
  deriving DecidableEq

def Lead.text : Lead → String
  | .group => "("
  | .has => sourceAlias ++ ".tags ? "
  | .lacks => "NOT " ++ sourceAlias ++ ".tags ? "
  | .compares => sourceAlias ++ ".tags->"
  | .meets => "ST_Intersects(" ++ sourceAlias ++ ".geom, "

def lead : Predicate → Lead
  | .all _ => .group
  | .any _ => .group
  | .hasTag _ => .has
  | .lacksTag _ => .lacks
  | .tagEquals _ _ => .compares
  | .tagDiffers _ _ => .compares
  | .intersects _ => .meets

/-- Parts under a connective up to the closing parenthesis. -/
def joined (connective : Connective) (parts : List Predicate) : String :=
  Text.joinWith connective.word (conditions sourceAlias parts)

/-- What follows the beginning of a condition. -/
def body : Predicate → String
  | .all parts => joined .and parts ++ ")"
  | .any parts => joined .or parts ++ ")"
  | .hasTag key => Sql.quote key
  | .lacksTag key => Sql.quote key
  | .tagEquals key value => Sql.quote key ++ " = " ++ Sql.quote value
  | .tagDiffers key value => Sql.quote key ++ " != " ++ Sql.quote value
  | .intersects target => target ++ ".geom)"

/-- A condition is what it begins with and the rest. -/
theorem condition_eq_lead_body (p : Predicate) :
    p.condition sourceAlias = p.lead.text ++ p.body := by
  have regroup : ∀ a b c d : String, a ++ b ++ c ++ d = a ++ (b ++ c ++ d) := by
    intro a b c d
    rw [String.append_assoc, String.append_assoc, String.append_assoc]
  cases p with
  | all parts => exact String.append_assoc
  | any parts => exact String.append_assoc
  | hasTag key => rfl
  | lacksTag key => rfl
  | tagEquals key value => exact regroup _ _ _ _
  | tagDiffers key value => exact regroup _ _ _ _
  | intersects target => exact String.append_assoc

/-- No beginning begins another. -/
theorem Lead.eq_of_prefix {a b : Lead} (begins : a.text.toList <+: b.text.toList) : a = b := by
  revert begins
  cases a <;> cases b <;> decide

/-- So the beginning of a text is one of them at most. -/
theorem Lead.append_inj {a b : Lead} {rest rest' : List Char}
    (same : a.text.toList ++ rest = b.text.toList ++ rest') : a = b ∧ rest = rest' := by
  have left : a.text.toList <+: b.text.toList ++ rest' := same ▸ List.prefix_append _ _
  have right : b.text.toList <+: b.text.toList ++ rest' := List.prefix_append _ _
  have equal : a = b := by
    rcases List.prefix_or_prefix_of_prefix left right with begins | begins
    · exact Lead.eq_of_prefix begins
    · exact (Lead.eq_of_prefix begins).symm
  subst equal
  exact ⟨rfl, List.append_cancel_left same⟩

theorem lead_under (c : Connective) (parts : List Predicate) : (under c parts).lead = .group := by
  cases c <;> rfl

theorem exists_under_of_lead {p : Predicate} (leads : p.lead = .group) :
    ∃ c parts, p = under c parts := by
  cases p with
  | all parts => exact ⟨.and, parts, rfl⟩
  | any parts => exact ⟨.or, parts, rfl⟩
  | _ => cases leads

theorem body_under (c : Connective) (parts : List Predicate) :
    (under c parts).body = joined c parts ++ ")" := by
  cases c <;> rfl

theorem canonical_under (c : Connective) (parts : List Predicate) :
    (under c parts).canonical = group c (canonicals parts) := by
  cases c <;> rfl

theorem wellFormed_under {c : Connective} {parts : List Predicate} :
    (under c parts).wellFormed ↔ parts ≠ [] ∧ wellFormedAll parts := by
  cases c <;> simp [under, wellFormed]

/-- Conditions that begin the same text begin alike. -/
theorem split_lead {p q : Predicate} {rest rest' : List Char}
    (same : (p.condition sourceAlias).toList ++ rest = (q.condition sourceAlias).toList ++ rest') :
    p.lead = q.lead ∧ p.body.toList ++ rest = q.body.toList ++ rest' := by
  rw [condition_eq_lead_body, condition_eq_lead_body, String.toList_append, String.toList_append,
    List.append_assoc, List.append_assoc] at same
  exact Lead.append_inj same

/-! ## Parts under a connective -/

theorem word_append_inj {c d : Connective} {rest rest' : List Char}
    (same : c.word.toList ++ rest = d.word.toList ++ rest') : c = d ∧ rest = rest' := by
  cases c <;> cases d <;> simp [Connective.word] at same <;> exact ⟨rfl, same⟩

/-- What follows a part under a connective: the other parts, if there are any, the
closing parenthesis, and the rest. -/
def continued (c : Connective) (parts : List Predicate) (rest : List Char) : List Char :=
  if parts = [] then ')' :: rest else c.word.toList ++ ((joined c parts).toList ++ ')' :: rest)

theorem joined_cons_append (c : Connective) (part : Predicate) (parts : List Predicate)
    (rest : List Char) :
    (joined c (part :: parts)).toList ++ ')' :: rest =
      (part.condition sourceAlias).toList ++ continued c parts rest := by
  cases parts with
  | nil => rfl
  | cons next more =>
      change (part.condition sourceAlias ++ c.word ++ joined c (next :: more)).toList ++ _ = _
      simp [continued]

/-- It shows by its first character whether there are other parts. -/
theorem head?_continued (c : Connective) (parts : List Predicate) (rest : List Char) :
    (continued c parts rest).head? = some (if parts = [] then ')' else ' ') := by
  cases parts with
  | nil => rfl
  | cons next more => cases c <;> rfl

/-- Connectives differ over more or fewer parts than one. -/
theorem group_canonicals_eq {c d : Connective} {parts others : List Predicate}
    (same : canonicals parts = canonicals others) (words : parts.length ≠ 1 → c = d) :
    group c (canonicals parts) = group d (canonicals others) := by
  rw [← same]
  by_cases single : parts.length = 1
  · obtain ⟨part, rfl⟩ := List.length_eq_one_iff.1 single
    rfl
  · rw [words single]

/-! ## Reading back -/

/-- The condition of `p` fixes the tree and where it ends: no other tree begins the
same text, whatever follows that is no quote. -/
def Readable (p : Predicate) : Prop :=
  ∀ (q : Predicate) (rest rest' : List Char), q.wellFormed →
    rest.head? ≠ some Sql.quoteMark → rest'.head? ≠ some Sql.quoteMark →
    (p.condition sourceAlias).toList ++ rest = (q.condition sourceAlias).toList ++ rest' →
    p.canonical = q.canonical ∧ rest = rest'

/-- Readable parts under a connective fix the parts and where they end, and, unless
there is a single part, the connective. -/
theorem joined_append_inj {c d : Connective} {parts others : List Predicate}
    (each : ∀ part ∈ parts, part.Readable) (formed : wellFormedAll others) (filled : parts ≠ [])
    (filled' : others ≠ []) {rest rest' : List Char}
    (same : (joined c parts).toList ++ ')' :: rest = (joined d others).toList ++ ')' :: rest') :
    canonicals parts = canonicals others ∧ (parts.length ≠ 1 → c = d) ∧ rest = rest' := by
  induction parts generalizing others with
  | nil => exact absurd rfl filled
  | cons part parts ih =>
      obtain ⟨other, others, rfl⟩ := List.exists_cons_of_ne_nil filled'
      rw [wellFormedAll, Bool.and_eq_true] at formed
      rw [joined_cons_append, joined_cons_append] at same
      have noQuote : ∀ (c : Connective) (parts : List Predicate) (rest : List Char),
          (continued c parts rest).head? ≠ some Sql.quoteMark := by
        intro c parts rest
        rw [head?_continued]
        split <;> decide
      obtain ⟨first, tail⟩ :=
        each part (by simp) other _ _ formed.1 (noQuote _ _ _) (noQuote _ _ _) same
      have heads := congrArg List.head? tail
      rw [head?_continued, head?_continued] at heads
      cases parts with
      | nil =>
          cases others with
          | nil =>
              simp only [continued, if_true, List.cons.injEq, true_and] at tail
              exact ⟨by simp only [canonicals, first], by simp, tail⟩
          | cons next more => simp at heads
      | cons next more =>
          cases others with
          | nil => simp at heads
          | cons next' more' =>
              simp only [continued, reduceCtorEq, if_false] at tail
              obtain ⟨word, tail⟩ := word_append_inj tail
              obtain ⟨later, -, ends⟩ := ih (fun p member => each p (List.mem_cons_of_mem _ member))
                formed.2 (by simp) (by simp) tail
              refine ⟨?_, fun _ => word, ends⟩
              rw [canonicals, first, later]
              rfl

/-- A comparison fixes its key, and then shows its sign. -/
theorem comparison_append_inj {key key' value value' sign sign' : String} {rest rest' : List Char}
    (spaced : sign.toList.head? = some ' ') (spaced' : sign'.toList.head? = some ' ')
    (same : (Sql.quote key ++ sign ++ Sql.quote value).toList ++ rest =
      (Sql.quote key' ++ sign' ++ Sql.quote value').toList ++ rest') :
    key = key' ∧ sign.toList ++ ((Sql.quote value).toList ++ rest) =
      sign'.toList ++ ((Sql.quote value').toList ++ rest') := by
  simp only [String.toList_append, List.append_assoc] at same
  have noQuote : ∀ {sign : String} {more : List Char}, sign.toList.head? = some ' ' →
      (sign.toList ++ more).head? ≠ some Sql.quoteMark := by
    intro sign more spaced
    rw [List.head?_append, spaced, Option.some_or]
    decide
  exact Sql.quote_append_inj (noQuote spaced) (noQuote spaced') same

/-- **One step**: readable parts are readable together, under a connective. -/
theorem readable_under (c : Connective) {parts : List Predicate}
    (each : ∀ part ∈ parts, part.Readable) (filled : parts ≠ []) : (under c parts).Readable := by
  intro q rest rest' formed _ _ same
  obtain ⟨leads, bodies⟩ := split_lead same
  obtain ⟨d, others, rfl⟩ := exists_under_of_lead (leads.symm.trans (lead_under c parts))
  rw [wellFormed_under] at formed
  rw [body_under, body_under, String.toList_append, String.toList_append, List.append_assoc,
    List.append_assoc] at bodies
  obtain ⟨trees, words, tail⟩ := joined_append_inj each formed.2 filled formed.1 bodies
  rw [canonical_under, canonical_under]
  exact ⟨group_canonicals_eq trees words, tail⟩

theorem readable_hasTag (key : String) : (Predicate.hasTag key).Readable := by
  intro q rest rest' _ ends ends' same
  obtain ⟨leads, bodies⟩ := split_lead same
  cases q with
  | hasTag other =>
      obtain ⟨rfl, tail⟩ := Sql.quote_append_inj ends ends' bodies
      exact ⟨rfl, tail⟩
  | _ => cases leads

theorem readable_lacksTag (key : String) : (Predicate.lacksTag key).Readable := by
  intro q rest rest' _ ends ends' same
  obtain ⟨leads, bodies⟩ := split_lead same
  cases q with
  | lacksTag other =>
      obtain ⟨rfl, tail⟩ := Sql.quote_append_inj ends ends' bodies
      exact ⟨rfl, tail⟩
  | _ => cases leads

theorem readable_tagEquals (key value : String) : (Predicate.tagEquals key value).Readable := by
  intro q rest rest' _ ends ends' same
  obtain ⟨leads, bodies⟩ := split_lead same
  cases q with
  | tagEquals key' value' =>
      obtain ⟨rfl, values⟩ := comparison_append_inj (by decide) (by decide) bodies
      obtain ⟨rfl, tail⟩ := Sql.quote_append_inj ends ends' (List.append_cancel_left values)
      exact ⟨rfl, tail⟩
  | tagDiffers key' value' =>
      obtain ⟨-, values⟩ := comparison_append_inj (by decide) (by decide) bodies
      simp at values
  | _ => cases leads

theorem readable_tagDiffers (key value : String) : (Predicate.tagDiffers key value).Readable := by
  intro q rest rest' _ ends ends' same
  obtain ⟨leads, bodies⟩ := split_lead same
  cases q with
  | tagEquals key' value' =>
      obtain ⟨-, values⟩ := comparison_append_inj (by decide) (by decide) bodies
      simp at values
  | tagDiffers key' value' =>
      obtain ⟨rfl, values⟩ := comparison_append_inj (by decide) (by decide) bodies
      obtain ⟨rfl, tail⟩ := Sql.quote_append_inj ends ends' (List.append_cancel_left values)
      exact ⟨rfl, tail⟩
  | _ => cases leads

theorem readable_intersects {target : String} (named : Sql.isIdentifier target) :
    (Predicate.intersects target).Readable := by
  intro q rest rest' formed _ _ same
  obtain ⟨leads, bodies⟩ := split_lead same
  cases q with
  | intersects other =>
      simp only [body, String.toList_append, List.append_assoc] at bodies
      obtain ⟨rfl, tail⟩ := Sql.identifier_append_inj named formed bodies
      exact ⟨rfl, List.append_cancel_left tail⟩
  | _ => cases leads

mutual

/-- **Every well-formed tree is readable.** -/
theorem readable : (p : Predicate) → p.wellFormed → p.Readable
  | .all parts, formed => by
      obtain ⟨filled, each⟩ := (wellFormed_under (c := .and)).1 formed
      exact readable_under .and (readableAll parts each) filled
  | .any parts, formed => by
      obtain ⟨filled, each⟩ := (wellFormed_under (c := .or)).1 formed
      exact readable_under .or (readableAll parts each) filled
  | .hasTag key, _ => readable_hasTag key
  | .lacksTag key, _ => readable_lacksTag key
  | .tagEquals key value, _ => readable_tagEquals key value
  | .tagDiffers key value, _ => readable_tagDiffers key value
  | .intersects _, named => readable_intersects named

theorem readableAll : (parts : List Predicate) → wellFormedAll parts → ∀ part ∈ parts, part.Readable
  | [], _ => by simp
  | part :: parts, formed => by
      rw [wellFormedAll, Bool.and_eq_true] at formed
      have first := readable part formed.1
      have others := readableAll parts formed.2
      intro p member
      rcases List.mem_cons.1 member with rfl | later
      · exact first
      · exact others p later

end

/-! ## Unique reading -/

/-- The word of a connective over a single part is not written. -/
theorem condition_group (row : String) (c : Connective) (parts : List Predicate) :
    (group c parts).condition row = (under c parts).condition row := by
  unfold group
  split
  · cases c <;> rfl
  · rfl

theorem condition_under_congr {row : String} (c : Connective) {parts others : List Predicate}
    (same : conditions row parts = conditions row others) :
    (under c parts).condition row = (under c others).condition row := by
  have written : ∀ parts, (under c parts).condition row =
      "(" ++ Text.joinWith c.word (conditions row parts) ++ ")" := by
    intro parts
    cases c <;> rfl
  rw [written, written, same]

mutual

/-- A tree has the condition of its canonical form. -/
theorem condition_canonical (row : String) : (p : Predicate) →
    p.canonical.condition row = p.condition row
  | .all parts =>
      (condition_group row .and _).trans
        (condition_under_congr .and (conditions_canonicals row parts))
  | .any parts =>
      (condition_group row .or _).trans
        (condition_under_congr .or (conditions_canonicals row parts))
  | .hasTag _ => rfl
  | .lacksTag _ => rfl
  | .tagEquals _ _ => rfl
  | .tagDiffers _ _ => rfl
  | .intersects _ => rfl

theorem conditions_canonicals (row : String) : (parts : List Predicate) →
    conditions row (canonicals parts) = conditions row parts
  | [] => rfl
  | part :: parts => by
      rw [canonicals, conditions, condition_canonical row part, conditions_canonicals row parts]
      rfl

end

/-- **A condition can be read in one way only.**  Two trees whose connectives have
parts and whose targets are identifiers are written alike exactly when they are
the same tree up to the word of connectives over a single part.  Their tags may
hold any text. -/
theorem condition_eq_iff_canonical_eq {p q : Predicate} (formed : p.wellFormed)
    (formed' : q.wellFormed) :
    p.condition sourceAlias = q.condition sourceAlias ↔ p.canonical = q.canonical := by
  constructor
  · intro same
    have nothing : ([] : List Char).head? ≠ some Sql.quoteMark := by decide
    exact (readable p formed q [] [] formed' nothing nothing (by rw [same])).1
  · intro same
    rw [← condition_canonical, same, condition_canonical]

namespace Example

/-- A value that would close its literal, end one connective and open another. -/
def forged : Predicate :=
  .any [.all [.tagEquals "name" "x') OR (el.tags ? 'y", .intersects "zone"]]

/-- The same tree under the other connective. -/
def forgedTwin : Predicate :=
  .all [.all [.tagEquals "name" "x') OR (el.tags ? 'y", .intersects "zone"]]

end Example

theorem forged_condition_eq_iff :
    Example.forged.wellFormed ∧ Example.forgedTwin.wellFormed ∧
      Example.forged.condition sourceAlias = Example.forgedTwin.condition sourceAlias ∧
      Example.forged.canonical = Example.forgedTwin.canonical := by
  have formed : Example.forged.wellFormed := by decide
  have formed' : Example.forgedTwin.wellFormed := by decide
  exact ⟨formed, formed', rfl, (condition_eq_iff_canonical_eq formed formed').1 rfl⟩

end Predicate

end MapAudit
