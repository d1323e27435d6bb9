import MapAudit.Sql.Literal
import MapAudit.Text.Blank
import MapAudit.Text.Cut
import Mathlib.Data.List.Infix

/-!
# Reading a statement past its literals

A scan of a statement is outside of literals, inside of one, or right behind a
quote that closes one unless a second quote follows.  `exposed` is what a text
shows outside of its literals, and `OneStatement` says that this is a single
statement without a comment.

A `Fragment` is a text that may be written into a statement behind any other: it
leaves no literal open, ends no statement and begins no comment.  Fragments follow
one another (`Fragment.append`), and a quoted literal may follow where the text
before it is bare (`Fragment.append_quote`), whatever the literal holds.
-/

namespace MapAudit.Sql

set_option autoImplicit false

/-- The character that opens and closes literals. -/
def quoteMark : Char := '\x27'

/-- Where a scan stands. -/
inductive Place where
  /-- Outside of literals. -/
  | outside
  /-- Inside of a literal. -/
  | inside
  /-- Behind a quote that closes a literal, unless another quote follows. -/
  | closing
  deriving DecidableEq, Repr

namespace Place

/-- Where a scan stands after one more character. -/
def next (place : Place) (c : Char) : Place :=
  match place with
  | .outside => if c = quoteMark then .inside else .outside
  | .inside => if c = quoteMark then .closing else .inside
  | .closing => if c = quoteMark then .inside else .outside

/-- Whether a character met there stands outside of literals.  The opening quote of
a literal does, and is all that shows of it. -/
def shows (place : Place) (c : Char) : Bool :=
  match place with
  | .outside => true
  | .inside => false
  | .closing => c ≠ quoteMark

/-- Where a scan stands after a text. -/
def after (place : Place) (text : List Char) : Place :=
  text.foldl next place

end Place

/-- The characters of a text that stand outside of literals, each literal shown by
its opening quote. -/
def exposed : Place → List Char → List Char
  | _, [] => []
  | place, c :: rest =>
      if place.shows c then c :: exposed (place.next c) rest else exposed (place.next c) rest

/-- The text is one statement: no literal is left open, and outside of literals
there is one semicolon, nothing but blanks behind it, and no comment. -/
structure OneStatement (sql : String) : Prop where
  closed : Place.after .outside sql.toList ≠ .inside
  single : (exposed .outside sql.toList).count ';' = 1
  last : ((exposed .outside sql.toList).dropWhile (· ≠ ';')).tail.all Text.isBlank
  noLineComment : ¬ ['-', '-'] <:+: exposed .outside sql.toList
  noBlockComment : ¬ ['/', '*'] <:+: exposed .outside sql.toList

instance (sql : String) : Decidable (OneStatement sql) :=
  decidable_of_iff
    (Place.after .outside sql.toList ≠ .inside ∧
      (exposed .outside sql.toList).count ';' = 1 ∧
      ((exposed .outside sql.toList).dropWhile (· ≠ ';')).tail.all Text.isBlank ∧
      ¬ ['-', '-'] <:+: exposed .outside sql.toList ∧
      ¬ ['/', '*'] <:+: exposed .outside sql.toList)
    ⟨fun ⟨closed, single, last, line, block⟩ => ⟨closed, single, last, line, block⟩,
      fun one => ⟨one.closed, one.single, one.last, one.noLineComment, one.noBlockComment⟩⟩

/-! ## Scanning texts one after another -/

theorem after_append (place : Place) (text more : List Char) :
    place.after (text ++ more) = (place.after text).after more :=
  List.foldl_append

/-- What a text shows depends on what stands before it only by the place of the scan. -/
theorem exposed_append (place : Place) (text more : List Char) :
    exposed place (text ++ more) = exposed place text ++ exposed (place.after text) more := by
  induction text generalizing place with
  | nil => rfl
  | cons c rest ih =>
      simp only [List.cons_append, exposed, Place.after, List.foldl_cons]
      split
      · rw [ih, List.cons_append]
        rfl
      · exact ih (place.next c)

/-- A text without quotes shows whole and leaves the scan outside. -/
theorem scan_of_no_quote {text : List Char} (plain : quoteMark ∉ text) :
    Place.after .outside text = .outside ∧ exposed .outside text = text := by
  induction text with
  | nil => exact ⟨rfl, rfl⟩
  | cons c rest ih =>
      rw [List.mem_cons, not_or] at plain
      have stays : Place.next .outside c = .outside := if_neg (Ne.symm plain.1)
      obtain ⟨after, shown⟩ := ih plain.2
      constructor
      · rw [Place.after, List.foldl_cons, stays]
        exact after
      · change c :: exposed (Place.next .outside c) rest = c :: rest
        rw [stays, shown]

/-- After some text without quotes, a scan that was not inside of a literal is
outside. -/
theorem after_of_no_quote {place : Place} {text : List Char} (behind : place ≠ .inside)
    (plain : quoteMark ∉ text) (some : text ≠ []) : place.after text = .outside := by
  cases text with
  | nil => exact absurd rfl some
  | cons c rest =>
      rw [List.mem_cons, not_or] at plain
      have leaves : place.next c = .outside := by
        cases place with
        | outside => exact if_neg (Ne.symm plain.1)
        | inside => exact absurd rfl behind
        | closing => exact if_neg (Ne.symm plain.1)
      rw [Place.after, List.foldl_cons, leaves]
      exact (scan_of_no_quote plain.2).1

/-- A text that does not begin with a quote is read behind a literal as it is read
outside. -/
theorem scan_of_head {place : Place} {text : List Char} (behind : place ≠ .inside)
    (plain : text.head? ≠ some quoteMark) :
    (place.after text = .inside ↔ Place.after .outside text = .inside) ∧
      exposed place text = exposed .outside text := by
  cases text with
  | nil => exact ⟨iff_of_false behind (by decide), rfl⟩
  | cons c rest =>
      have other : c ≠ quoteMark := fun same => plain (by simp [same])
      cases place with
      | outside => exact ⟨Iff.rfl, rfl⟩
      | inside => exact absurd rfl behind
      | closing =>
          have fromClosing : Place.next .closing c = .outside := if_neg other
          have fromOutside : Place.next .outside c = .outside := if_neg other
          constructor
          · rw [Place.after, Place.after, List.foldl_cons, List.foldl_cons, fromClosing,
              fromOutside]
          · simp [exposed, Place.shows, other, fromClosing, fromOutside]

/-- Inside of a literal, a text with every quote doubled shows nothing and stays
there. -/
theorem scan_doubleQuotes (text : List Char) :
    Place.after .inside (doubleQuotes text) = .inside ∧
      exposed .inside (doubleQuotes text) = [] := by
  induction text with
  | nil => exact ⟨rfl, rfl⟩
  | cons c rest ih =>
      obtain ⟨after, shown⟩ := ih
      rw [doubleQuotes]
      split
      · -- the first quote seems to close the literal, the second takes that back
        exact ⟨after, shown⟩
      · rename_i other
        have stays : Place.next .inside c = .inside := if_neg other
        constructor
        · rw [Place.after, List.foldl_cons, stays]
          exact after
        · rw [exposed, if_neg (by simp [Place.shows]), stays, shown]

theorem toList_quote (s : String) :
    (quote s).toList = quoteMark :: (doubleQuotes s.toList ++ [quoteMark]) := by
  simp [quote, quoteMark]

/-- A quoted literal shows as its opening quote and is closed at its end, whatever
it holds. -/
theorem scan_quote (s : String) :
    Place.after .outside (quote s).toList = .closing ∧
      exposed .outside (quote s).toList = [quoteMark] := by
  obtain ⟨after, shown⟩ := scan_doubleQuotes s.toList
  rw [toList_quote]
  constructor
  · change Place.after .inside (doubleQuotes s.toList ++ [quoteMark]) = .closing
    rw [after_append, after]
    rfl
  · change quoteMark :: exposed .inside (doubleQuotes s.toList ++ [quoteMark]) = [quoteMark]
    rw [exposed_append, after, shown]
    rfl

/-! ## Texts in which no comment begins -/

/-- No slash, no two dashes in a row, and no dash at the end. -/
def quiet : List Char → Bool
  | [] => true
  | [c] => c ≠ '/' && c ≠ '-'
  | c :: d :: rest => c ≠ '/' && (c ≠ '-' || d ≠ '-') && quiet (d :: rest)

theorem quiet_append {text more : List Char} (first : quiet text) (second : quiet more) :
    quiet (text ++ more) := by
  fun_induction quiet text with
  | case1 => exact second
  | case2 c =>
      cases more with
      | nil => simpa [quiet] using first
      | cons d rest => simp_all [quiet]
  | case3 c d rest ih =>
      simp only [Bool.and_eq_true] at first
      simp only [List.cons_append, quiet, Bool.and_eq_true]
      exact ⟨first.1, ih first.2⟩

theorem quiet_of_forall {text : List Char} (calm : ∀ c ∈ text, c ≠ '/' ∧ c ≠ '-') : quiet text := by
  fun_induction quiet text with
  | case1 => rfl
  | case2 c => simpa using calm c (by simp)
  | case3 c d rest ih =>
      have here := calm c (by simp)
      have later := ih fun c member => calm c (List.mem_cons_of_mem _ member)
      simp [here, later]

/-- A quiet text opens no comment. -/
theorem not_infix_of_quiet {text : List Char} (calm : quiet text) :
    ¬ ['-', '-'] <:+: text ∧ ¬ ['/', '*'] <:+: text := by
  fun_induction quiet text with
  | case1 => simp
  | case2 c => simp [List.infix_cons_iff]
  | case3 c d rest ih =>
      simp only [Bool.and_eq_true, Bool.or_eq_true, decide_eq_true_eq] at calm
      obtain ⟨⟨slash, dash⟩, later⟩ := calm
      obtain ⟨line, block⟩ := ih later
      constructor
      · rw [List.infix_cons_iff, not_or]
        refine ⟨fun front => ?_, line⟩
        simp only [List.cons_prefix_cons] at front
        obtain ⟨rfl, rfl, -⟩ := front
        simp at dash
      · rw [List.infix_cons_iff, not_or]
        refine ⟨fun front => ?_, block⟩
        simp only [List.cons_prefix_cons] at front
        exact slash front.1.symm

/-! ## Fragments of statements -/

/-- An identifier holds nothing but letters, digits and underscores. -/
theorem isIdentifierPart_of_mem {s : String} (identifier : isIdentifier s) :
    ∀ c ∈ s.toList, isIdentifierPart c := by
  simp only [isIdentifier, Bool.and_eq_true] at identifier
  cases text : s.toList with
  | nil => simp
  | cons first rest =>
      have word := identifier.2
      rw [text, isIdentifierWord, Bool.and_eq_true, List.all_eq_true] at word
      intro c member
      rcases List.mem_cons.1 member with rfl | later
      · simp [isIdentifierPart, word.1]
      · exact word.2 c later

/-- No quote, no semicolon, and nothing a comment could begin with. -/
def bare (text : List Char) : Bool :=
  text.all (fun c => c ≠ quoteMark && c ≠ ';') && quiet text

theorem bare_iff {text : List Char} :
    bare text ↔ (∀ c ∈ text, c ≠ quoteMark ∧ c ≠ ';') ∧ quiet text := by
  simp [bare]

theorem no_quote_of_bare {text : List Char} (plain : bare text) : quoteMark ∉ text :=
  fun member => ((bare_iff.1 plain).1 quoteMark member).1 rfl

/-- A class of characters without the quote, the semicolon, the slash and the dash. -/
def isPlain (p : Char → Bool) : Bool :=
  !p quoteMark && !p ';' && !p '/' && !p '-'

theorem ne_of_isPlain {p : Char → Bool} (plain : isPlain p) {c : Char} (holds : p c) :
    c ≠ quoteMark ∧ c ≠ ';' ∧ c ≠ '/' ∧ c ≠ '-' := by
  simp only [isPlain, Bool.and_eq_true, Bool.not_eq_true'] at plain
  obtain ⟨⟨⟨quote, semicolon⟩, slash⟩, dash⟩ := plain
  refine ⟨?_, ?_, ?_, ?_⟩ <;> rintro rfl <;> simp_all

theorem bare_of_isPlain {p : Char → Bool} (plain : isPlain p) {text : List Char}
    (each : ∀ c ∈ text, p c) : bare text := by
  refine bare_iff.2 ⟨fun c member => ?_, quiet_of_forall fun c member => ?_⟩
  · obtain ⟨quote, semicolon, -⟩ := ne_of_isPlain plain (each c member)
    exact ⟨quote, semicolon⟩
  · exact (ne_of_isPlain plain (each c member)).2.2

theorem bare_append {text more : List Char} (first : bare text) (second : bare more) :
    bare (text ++ more) := by
  obtain ⟨left, calm⟩ := bare_iff.1 first
  obtain ⟨right, still⟩ := bare_iff.1 second
  refine bare_iff.2 ⟨fun c member => ?_, quiet_append calm still⟩
  exact (List.mem_append.1 member).elim (left c) (right c)

/-- A dash is bare before a bare text that begins with another character. -/
theorem bare_dash {c : Char} {text : List Char} (other : c ≠ '-') (plain : bare (c :: text)) :
    bare ('-' :: c :: text) := by
  obtain ⟨each, calm⟩ := bare_iff.1 plain
  refine bare_iff.2 ⟨fun d member => ?_, by simp [quiet, other, calm]⟩
  rcases List.mem_cons.1 member with rfl | later
  · decide
  · exact each d later

/-- A text that may be written into a statement behind any other. -/
structure Fragment (s : String) : Prop where
  head : s.toList.head? ≠ some quoteMark
  closed : Place.after .outside s.toList ≠ .inside
  noEnd : ';' ∉ exposed .outside s.toList
  calm : quiet (exposed .outside s.toList)

theorem fragment_of_bare {s : String} (plain : bare s.toList) : Fragment s := by
  obtain ⟨after, shown⟩ := scan_of_no_quote (no_quote_of_bare plain)
  constructor
  · exact fun first => no_quote_of_bare plain (List.mem_of_head? first)
  · simp [after]
  · rw [shown]
    exact fun member => ((bare_iff.1 plain).1 ';' member).2 rfl
  · rw [shown]
    exact (bare_iff.1 plain).2

theorem head_append {s t : String} (first : s.toList.head? ≠ some quoteMark)
    (second : s = "" → t.toList.head? ≠ some quoteMark) :
    (s ++ t).toList.head? ≠ some quoteMark := by
  rw [String.toList_append, List.head?_append]
  cases front : s.toList.head? with
  | none => exact second (by simpa using front)
  | some c =>
      rw [front] at first
      exact first

/-- Fragments follow one another. -/
theorem Fragment.append {s t : String} (first : Fragment s) (second : Fragment t) :
    Fragment (s ++ t) := by
  obtain ⟨after, shown⟩ := scan_of_head first.closed second.head
  refine ⟨head_append first.head fun _ => second.head, ?_, ?_, ?_⟩ <;> rw [String.toList_append]
  · rw [after_append]
    exact fun inside => second.closed (after.1 inside)
  · rw [exposed_append, shown, List.mem_append, not_or]
    exact ⟨first.noEnd, second.noEnd⟩
  · rw [exposed_append, shown]
    exact quiet_append first.calm second.calm

theorem Fragment.append_bare {s t : String} (first : Fragment s) (plain : bare t.toList) :
    Fragment (s ++ t) :=
  first.append (fragment_of_bare plain)

/-- A literal may follow a bare text that is not empty, whatever it holds. -/
theorem Fragment.append_quote {s between : String} (first : Fragment s)
    (plain : bare between.toList) (some : between ≠ "") (value : String) :
    Fragment (s ++ between ++ quote value) := by
  have before : Fragment (s ++ between) := first.append_bare plain
  have outside : Place.after .outside (s ++ between).toList = .outside := by
    rw [String.toList_append, after_append]
    exact after_of_no_quote first.closed (no_quote_of_bare plain) (by simpa using some)
  obtain ⟨after, shown⟩ := scan_quote value
  have filled : s ++ between ≠ "" := by simp [some]
  refine ⟨head_append before.head fun empty => absurd empty filled, ?_, ?_, ?_⟩ <;>
    rw [String.toList_append]
  · rw [after_append, outside, after]
    decide
  · rw [exposed_append, outside, shown, List.mem_append, not_or]
    exact ⟨before.noEnd, by decide⟩
  · rw [exposed_append, outside, shown]
    exact quiet_append before.calm (by decide)

/-- Fragments with a fragment between neighbours are a fragment. -/
theorem fragment_joinWith {between : String} (separator : Fragment between) {texts : List String}
    (each : ∀ s ∈ texts, Fragment s) : Fragment (Text.joinWith between texts) := by
  fun_induction Text.joinWith between texts with
  | case1 => exact fragment_of_bare (by decide)
  | case2 s => exact each s (by simp)
  | case3 s next rest ih =>
      have later := ih fun t member => each t (List.mem_cons_of_mem _ member)
      exact ((each s (by simp)).append separator).append later

/-- **A fragment, a semicolon and blanks are one statement.** -/
theorem Fragment.oneStatement {s ending : String} {blanks : List Char} (fragment : Fragment s)
    (ends : ending.toList = ';' :: blanks) (blank : blanks.all Text.isBlank) :
    OneStatement (s ++ ending) := by
  have plainBlank : isPlain Text.isBlank := by decide
  have other : ∀ c ∈ blanks, c ≠ quoteMark ∧ c ≠ ';' ∧ c ≠ '/' ∧ c ≠ '-' := by
    intro c member
    exact ne_of_isPlain plainBlank (List.all_eq_true.1 blank c member)
  have plain : quoteMark ∉ ending.toList := by
    rw [ends, List.mem_cons, not_or]
    exact ⟨by decide, fun member => (other quoteMark member).1 rfl⟩
  have shown : exposed .outside (s ++ ending).toList =
      exposed .outside s.toList ++ ';' :: blanks := by
    have head : ending.toList.head? ≠ some quoteMark := fun first => plain (List.mem_of_head? first)
    rw [String.toList_append, exposed_append, (scan_of_head fragment.closed head).2,
      (scan_of_no_quote plain).2, ends]
  have calm : quiet (exposed .outside s.toList ++ ';' :: blanks) :=
    quiet_append fragment.calm (quiet_of_forall fun c member => by
      rcases List.mem_cons.1 member with rfl | later
      · decide
      · exact (other c later).2.2)
  constructor <;> (try rw [shown])
  · have some : ending.toList ≠ [] := by simp [ends]
    rw [String.toList_append, after_append, after_of_no_quote fragment.closed plain some]
    decide
  · have none : blanks.count ';' = 0 := by
      rw [List.count_eq_zero]
      exact fun member => (other ';' member).2.1 rfl
    rw [List.count_append, List.count_eq_zero.2 fragment.noEnd, List.count_cons_self, none]
  · have passed : ∀ c ∈ exposed .outside s.toList, decide (c ≠ ';') = true := fun c member =>
      decide_eq_true fun same => fragment.noEnd (same ▸ member)
    rw [List.dropWhile_append_of_pos passed]
    simpa using blank
  · exact (not_infix_of_quiet calm).1
  · exact (not_infix_of_quiet calm).2

theorem Fragment.semicolon {s : String} (fragment : Fragment s) : OneStatement (s ++ ";") :=
  fragment.oneStatement (show ";".toList = ';' :: [] by decide) (by decide)

theorem Fragment.semicolon_newline {s : String} (fragment : Fragment s) :
    OneStatement (s ++ ";\n") :=
  fragment.oneStatement (show ";\n".toList = ';' :: ['\n'] by decide) (by decide)

example : OneStatement ("SELECT " ++ quote "it's; -- done" ++ ";\n") := by decide

example : ¬ OneStatement "SELECT 'it's; -- done';\n" := by decide

end MapAudit.Sql
