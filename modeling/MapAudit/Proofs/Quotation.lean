import MapAudit.Proofs.UniqueReading

/-!
# Quoted texts are read as they were written

`Sql.Reads` is the rule by which a store reads a literal, apart from the scanner that
follows it (`scanLiteral_eq_some_iff`): behind the opening quote a doubled quote stands
for one, and a lone quote ends the literal.

A quoted text is read as that text and nothing else, whatever runs of quotes it holds.
What follows may begin with a quote, and then the literal goes on; but it never ends
inside of the quoted text (`ReadsOn.split_doubleQuotes`).
-/

namespace MapAudit.Sql

set_option autoImplicit false

/-! ## The rule of literals -/

/-- Inside of a literal, `text` holds the rest of its value and then, behind its last
quote, `rest`. -/
inductive ReadsOn : (text value rest : List Char) → Prop where
  | ends {rest : List Char} (lone : rest.head? ≠ some quoteMark) :
      ReadsOn (quoteMark :: rest) [] rest
  | doubled {text value rest : List Char} (later : ReadsOn text value rest) :
      ReadsOn (quoteMark :: quoteMark :: text) (quoteMark :: value) rest
  | plain {c : Char} {text value rest : List Char} (other : c ≠ quoteMark)
      (later : ReadsOn text value rest) : ReadsOn (c :: text) (c :: value) rest

/-- A text begins with a literal of this value, and `rest` follows. -/
def Reads (text : List Char) (value : String) (rest : List Char) : Prop :=
  ∃ inside, text = quoteMark :: inside ∧ ReadsOn inside value.toList rest

/-- The scanner follows the rule. -/
theorem scanLiteral_eq_some_iff {text value rest : List Char} :
    scanLiteral text = some (value, rest) ↔ ReadsOn text value rest := by
  constructor
  · intro read
    fun_induction scanLiteral text generalizing value with
    | case1 => cases read
    | case2 more ih =>
        obtain ⟨⟨value, rest⟩, found, same⟩ := Option.map_eq_some_iff.1 read
        cases same
        exact .doubled (ih found)
    | case3 more single =>
        cases read
        refine .ends fun doubled => ?_
        obtain ⟨again, text⟩ := List.head?_eq_some_iff.1 doubled
        exact single again rfl text
    | case4 c more _ other ih =>
        obtain ⟨⟨value, rest⟩, found, same⟩ := Option.map_eq_some_iff.1 read
        cases same
        exact .plain other (ih found)
  · intro reads
    induction reads with
    | ends lone => exact scanLiteral_doubleQuotes [] lone
    | doubled _ ih => simp [scanLiteral, quoteMark, ih]
    | @plain c text value rest other _ ih =>
        have single : c ≠ '\x27' := other
        simp [scanLiteral, single, ih]

/-- Inside a literal a text is read in one way. -/
theorem ReadsOn.unique {text value value' rest rest' : List Char}
    (first : ReadsOn text value rest) (second : ReadsOn text value' rest') :
    value = value' ∧ rest = rest' := by
  have same := (scanLiteral_eq_some_iff.2 first).symm.trans (scanLiteral_eq_some_iff.2 second)
  simpa using same

theorem ReadsOn.of_pair {text value rest : List Char}
    (reads : ReadsOn (quoteMark :: quoteMark :: text) value rest) :
    ∃ later, value = quoteMark :: later ∧ ReadsOn text later rest := by
  cases reads with
  | ends lone => exact absurd rfl lone
  | doubled reads => exact ⟨_, rfl, reads⟩
  | plain other _ => exact absurd rfl other

theorem ReadsOn.of_plain {c : Char} {text value rest : List Char}
    (reads : ReadsOn (c :: text) value rest) (other : c ≠ quoteMark) :
    ∃ later, value = c :: later ∧ ReadsOn text later rest := by
  cases reads with
  | ends _ => exact absurd rfl other
  | doubled _ => exact absurd rfl other
  | plain _ reads => exact ⟨_, rfl, reads⟩

theorem ReadsOn.suffix {text value rest : List Char} (reads : ReadsOn text value rest) :
    rest <:+ text := by
  induction reads with
  | ends _ => exact List.suffix_cons _ _
  | doubled _ ih => exact (ih.trans (List.suffix_cons _ _)).trans (List.suffix_cons _ _)
  | plain _ _ ih => exact ih.trans (List.suffix_cons _ _)

/-! ## Texts with every quote doubled -/

theorem doubleQuotes_cons_of_ne {c : Char} (other : c ≠ quoteMark) (text : List Char) :
    doubleQuotes (c :: text) = c :: doubleQuotes text :=
  if_neg other

theorem ReadsOn.doubleQuotes_append (text : List Char) {more value rest : List Char}
    (reads : ReadsOn more value rest) :
    ReadsOn (doubleQuotes text ++ more) (text ++ value) rest := by
  induction text with
  | nil => exact reads
  | cons c text ih =>
      by_cases quoted : c = quoteMark
      · subst quoted
        exact .doubled ih
      · rw [doubleQuotes_cons_of_ne quoted]
        exact .plain quoted ih

/-- What is read from behind a text with every quote doubled is read there on its own: the
quotes of the text come in pairs, and none of them meets what follows. -/
theorem ReadsOn.split_doubleQuotes {text more value rest : List Char}
    (reads : ReadsOn (doubleQuotes text ++ more) value rest) :
    ∃ later, value = text ++ later ∧ ReadsOn more later rest := by
  induction text generalizing value with
  | nil => exact ⟨value, rfl, reads⟩
  | cons c text ih =>
      have split : ∃ next, value = c :: next ∧ ReadsOn (doubleQuotes text ++ more) next rest := by
        by_cases quoted : c = quoteMark
        · subst quoted
          exact reads.of_pair
        · rw [doubleQuotes_cons_of_ne quoted] at reads
          exact reads.of_plain quoted
      obtain ⟨next, rfl, behind⟩ := split
      obtain ⟨later, rfl, tail⟩ := ih behind
      exact ⟨later, rfl, tail⟩

/-! ## Quoted texts -/

theorem reads_quote_append_iff {s value : String} {more rest : List Char} :
    Reads ((quote s).toList ++ more) value rest ↔
      ReadsOn (doubleQuotes s.toList ++ quoteMark :: more) value.toList rest := by
  rw [toList_quote, List.cons_append, List.append_assoc, List.singleton_append]
  constructor
  · rintro ⟨inside, same, reads⟩
    obtain ⟨-, rfl⟩ := List.cons.inj same
    exact reads
  · exact fun reads => ⟨_, rfl, reads⟩

/-- A quoted text reads back, unless another quote follows at once. -/
theorem reads_quote (s : String) {rest : List Char} (ends : rest.head? ≠ some quoteMark) :
    Reads ((quote s).toList ++ rest) s rest := by
  have reads := (ReadsOn.ends ends).doubleQuotes_append s.toList
  rw [List.append_nil] at reads
  exact reads_quote_append_iff.2 reads

theorem Reads.eq_of_quote {s value : String} {rest left : List Char}
    (reads : Reads ((quote s).toList ++ rest) value left) (ends : rest.head? ≠ some quoteMark) :
    value = s ∧ left = rest := by
  have own := reads_quote_append_iff.1 (reads_quote s ends)
  obtain ⟨same, behind⟩ := (reads_quote_append_iff.1 reads).unique own
  exact ⟨String.toList_inj.1 same, behind⟩

/-- **A quoted text is one literal.**  Before a text that begins with no quote it is read as
the text that was quoted, and what follows is left.  So no two texts are quoted alike; and
whatever follows, a literal that begins with a quoted text does not end inside of it. -/
theorem quoted_text_is_one_literal (s : String) {rest : List Char}
    (ends : rest.head? ≠ some quoteMark) :
    (∀ value left, Reads ((quote s).toList ++ rest) value left ↔ value = s ∧ left = rest) ∧
      Function.Injective quote ∧
      ∀ more value left, Reads ((quote s).toList ++ more) value left →
        s.toList <+: value.toList ∧ left <:+ more := by
  refine ⟨fun value left => ⟨fun reads => reads.eq_of_quote ends, ?_⟩, ?_, ?_⟩
  · rintro ⟨rfl, rfl⟩
    exact reads_quote value ends
  · intro s t same
    have nothing : ([] : List Char).head? ≠ some quoteMark := by decide
    have reads := reads_quote s nothing
    rw [same] at reads
    exact (reads.eq_of_quote nothing).1
  · intro more value left reads
    obtain ⟨later, whole, behind⟩ := (reads_quote_append_iff.1 reads).split_doubleQuotes
    refine ⟨⟨later, whole.symm⟩, ?_⟩
    -- What is read behind the text begins with its last quote: the literal ends there, or
    -- goes on with a quote of what follows.
    cases behind with
    | ends _ => exact List.suffix_rfl
    | doubled further => exact further.suffix.trans (List.suffix_cons _ _)
    | plain other _ => exact absurd rfl other

/-- Quotes at both ends and in a run between them. -/
theorem quoted_quotes_are_one_literal :
    (" = 'x'".toList).head? ≠ some quoteMark ∧
      quote "'a'''b'" = "'''a''''''b'''" ∧
      Reads ((quote "'a'''b'").toList ++ " = 'x'".toList) "'a'''b'" " = 'x'".toList := by
  have ends : (" = 'x'".toList).head? ≠ some quoteMark := by decide
  exact ⟨ends, by decide, ((quoted_text_is_one_literal "'a'''b'" ends).1 _ _).2 ⟨rfl, rfl⟩⟩

end MapAudit.Sql
