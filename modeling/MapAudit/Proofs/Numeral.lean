import MapAudit.Proofs.Construction
import MapAudit.Proofs.Decoding
import MapAudit.Proofs.Grammar
import Mathlib.Data.List.TakeWhile

/-!
# Distances are numerals between blanks

A `Numeral` has the parts that a decimal number is written with: a minus or none, digits, and
then a fraction, an exponent, both or neither.  The language of distances holds exactly what is
written with such parts (`writes_distance`), so that a text is accepted as a distance exactly if
it is a numeral from its first character to its last.

A request takes its distance from between blanks.  Trimming gives the one trimmed text that
blanks around it make the whole (`trimChars_eq_iff`); and since no numeral holds a blank, the
request keeps all of the numeral and nothing else.
-/

namespace MapAudit

set_option autoImplicit false

namespace Text

/-! ## Trimming -/

section Trimming

variable {front core back text : List Char}

theorem trimChars_of_blank (blank : ∀ c ∈ text, isBlank c) : trimChars text = [] := by
  rw [trimChars, List.dropWhile_eq_nil_iff.2 blank]
  rfl

/-- Blanks around a trimmed text are dropped. -/
theorem trimChars_between (trimmed : Trimmed core) (before : ∀ c ∈ front, isBlank c)
    (behind : ∀ c ∈ back, isBlank c) : trimChars (front ++ core ++ back) = core := by
  cases core with
  | nil =>
      refine trimChars_of_blank fun c member => ?_
      rw [List.append_nil] at member
      exact (List.mem_append.1 member).elim (before c) (behind c)
  | cons first core =>
      have starts : (first :: core ++ back).dropWhile isBlank = first :: core ++ back :=
        dropWhile_isBlank_of_head trimmed.1
      have reversed : ∀ c ∈ back.reverse, isBlank c := fun c member =>
        behind c (List.mem_reverse.1 member)
      rw [List.append_assoc, trimChars, List.dropWhile_append_of_pos before, starts,
        List.reverse_append, List.dropWhile_append_of_pos reversed, dropWhile_isBlank_of_head,
        List.reverse_reverse]
      intro c last
      rw [List.head?_reverse] at last
      exact trimmed.2 c last

/-- Only blanks are dropped. -/
theorem exists_split_trimChars (text : List Char) : ∃ front back,
    text = front ++ trimChars text ++ back ∧
      (∀ c ∈ front, isBlank c) ∧ ∀ c ∈ back, isBlank c := by
  have dropped : ∀ text : List Char, ∃ front, text = front ++ text.dropWhile isBlank ∧
      ∀ c ∈ front, isBlank c := fun text =>
    ⟨text.takeWhile isBlank, List.takeWhile_append_dropWhile.symm,
      List.all_eq_true.1 List.all_takeWhile⟩
  obtain ⟨front, whole, before⟩ := dropped text
  obtain ⟨back, rest, behind⟩ := dropped (text.dropWhile isBlank).reverse
  refine ⟨front, back.reverse, ?_, before, fun c member => behind c (List.mem_reverse.1 member)⟩
  rw [trimChars, List.append_assoc, ← List.reverse_append, ← rest, List.reverse_reverse, ← whole]

/-- **Trimming** gives the trimmed text that blanks around it make the whole. -/
theorem trimChars_eq_iff : trimChars text = core ↔ Trimmed core ∧ ∃ front back,
    text = front ++ core ++ back ∧ (∀ c ∈ front, isBlank c) ∧ ∀ c ∈ back, isBlank c := by
  constructor
  · rintro rfl
    exact ⟨trimmed_trimChars text, exists_split_trimChars text⟩
  · rintro ⟨trimmed, front, back, rfl, before, behind⟩
    exact trimChars_between trimmed before behind

theorem trimmed_of_no_blank (filled : ∀ c ∈ text, isBlank c = false) : Trimmed text :=
  ⟨fun c first => filled c (List.mem_of_mem_head? first),
    fun c last => filled c (List.mem_of_mem_getLast? last)⟩

end Trimming

end Text

namespace Sql

/-! ## Numerals -/

structure Exponent where
  mark : {c : Char // c = 'e' ∨ c = 'E'}
  sign : Option {c : Char // c = '-' ∨ c = '+'}
  digits : {run : List Char // Text.Digits run}

def Exponent.chars (e : Exponent) : List Char :=
  [e.mark.1] ++ (e.sign.elim [] fun c => [c.1]) ++ e.digits.1

/-- A decimal number by the parts that it is written with. -/
structure Numeral where
  /-- Whether a minus comes first; no other sign does. -/
  minus : Bool
  whole : {run : List Char // Text.Digits run}
  /-- The digits behind the point. -/
  fraction : Option {run : List Char // Text.Digits run}
  exponent : Option Exponent

def Numeral.chars (n : Numeral) : List Char :=
  (if n.minus then ['-'] else []) ++ n.whole.1 ++ (n.fraction.elim [] fun run => '.' :: run.1) ++
    n.exponent.elim [] Exponent.chars

def Numeral.text (n : Numeral) : String :=
  String.ofList n.chars

def IsNumeral (text : String) : Prop :=
  ∃ n : Numeral, n.text = text

/-! ## Languages and what they are written with -/

/-- The language holds exactly what is written. -/
def Writes {α : Type} (write : α → List Char) (language : Language Char) : Prop :=
  ∀ word, word ∈ language ↔ ∃ a, write a = word

section Writes

variable {α β : Type} {write : α → List Char} {further : β → List Char}
  {language rest : Language Char}

/-- What is written by two parts is the product of what each writes. -/
theorem Writes.append (first : Writes write language) (second : Writes further rest) :
    Writes (fun pair : α × β => write pair.1 ++ further pair.2) (language * rest) := by
  intro word
  rw [Language.mem_mul]
  constructor
  · rintro ⟨front, starts, back, ends, rfl⟩
    obtain ⟨a, rfl⟩ := (first front).1 starts
    obtain ⟨b, rfl⟩ := (second back).1 ends
    exact ⟨(a, b), rfl⟩
  · rintro ⟨⟨a, b⟩, rfl⟩
    exact ⟨write a, (first _).2 ⟨a, rfl⟩, further b, (second _).2 ⟨b, rfl⟩, rfl⟩

theorem Writes.optional (writes : Writes write language) :
    Writes (fun part : Option α => part.elim [] write) (1 + language) := by
  intro word
  rw [Language.mem_add, Language.mem_one, writes]
  constructor
  · rintro (rfl | ⟨a, rfl⟩)
    · exact ⟨none, rfl⟩
    · exact ⟨some a, rfl⟩
  · rintro ⟨part, rfl⟩
    cases part with
    | none => exact Or.inl rfl
    | some a => exact Or.inr ⟨a, rfl⟩

/-- The same words, written with other parts. -/
theorem Writes.congr (writes : Writes write language) (there : α → β) (back : β → α)
    (same : ∀ a, further (there a) = write a) (same' : ∀ b, write (back b) = further b) :
    Writes further language := by
  intro word
  rw [writes]
  constructor
  · rintro ⟨a, rfl⟩
    exact ⟨there a, same a⟩
  · rintro ⟨b, rfl⟩
    exact ⟨back b, same' b⟩

theorem writes_one (within : Char → Prop) :
    Writes (fun c : {c : Char // within c} => [c.1]) (Grammar.one within) := by
  intro word
  constructor
  · rintro ⟨c, member, rfl⟩
    exact ⟨⟨c, member⟩, rfl⟩
  · rintro ⟨c, rfl⟩
    exact ⟨c.1, c.2, rfl⟩

/-- Runs of digits are the words of the language of digits. -/
theorem writes_digits :
    Writes (fun run : {run : List Char // Text.Digits run} => run.1) Grammar.digits := by
  intro word
  rw [Grammar.mem_digits_iff]
  constructor
  · rintro ⟨nonempty, all⟩
    exact ⟨⟨word, nonempty, all⟩, rfl⟩
  · rintro ⟨run, rfl⟩
    exact ⟨run.2.nonempty, run.2.all⟩

theorem writes_exponent :
    Writes (fun part : Option Exponent => part.elim [] Exponent.chars) Grammar.exponent := by
  have signed := (writes_one fun c => c = '-' ∨ c = '+').optional.append writes_digits
  have marked := (writes_one fun c => c = 'e' ∨ c = 'E').append signed
  refine (marked.congr (fun parts => ⟨parts.1, parts.2.1, parts.2.2⟩)
    (fun e : Exponent => (e.mark, e.sign, e.digits)) ?_ ?_).optional
  · intro parts
    exact List.append_assoc ..
  · intro e
    exact (List.append_assoc ..).symm

/-- **The words of the language of distances** are the numerals. -/
theorem writes_distance : Writes Numeral.chars Grammar.distance := by
  have minus : Writes (fun minus : Bool => if minus then ['-'] else []) (1 + Grammar.one (· = '-')) :=
    (writes_one (· = '-')).optional.congr Option.isSome
      (fun minus => if minus then some ⟨'-', rfl⟩ else none)
      (by rintro (_ | ⟨_, rfl⟩) <;> rfl) (by rintro (_ | _) <;> rfl)
  have pointed := ((writes_one (· = '.')).append writes_digits).optional
  -- A numeral leaves out what there is no choice of: which minus, and which point.
  refine (minus.append (writes_digits.append (pointed.append writes_exponent))).congr
    (fun parts => ⟨parts.1, parts.2.1, parts.2.2.1.map Prod.snd, parts.2.2.2⟩)
    (fun n => (n.minus, n.whole, n.fraction.map fun run => (⟨'.', rfl⟩, run), n.exponent)) ?_ ?_
  · rintro ⟨minus, whole, _ | ⟨⟨_, rfl⟩, run⟩, exponent⟩ <;> simp [Numeral.chars]
  · rintro ⟨minus, whole, _ | run, exponent⟩ <;> simp [Numeral.chars]

end Writes

/-! ## Distances -/

theorem isDistance_iff_isNumeral {text : String} : isDistance text ↔ IsNumeral text := by
  rw [isDistance_iff, writes_distance]
  constructor
  · rintro ⟨n, same⟩
    exact ⟨n, by rw [Numeral.text, same, String.ofList_toList]⟩
  · rintro ⟨n, rfl⟩
    exact ⟨n, by rw [Numeral.text, String.toList_ofList]⟩

/-- What distances are written with. -/
def isDistancePart (c : Char) : Bool :=
  Text.isDigit c || ['-', '+', '.', 'e', 'E'].contains c

theorem isDistancePart_of_digits {run : List Char} (digits : Text.Digits run) :
    ∀ c ∈ run, isDistancePart c := by
  intro c member
  rw [isDistancePart, List.all_eq_true.1 (Text.digits_iff.2 digits).2 c member, Bool.true_or]

theorem Exponent.isDistancePart_of_mem (e : Exponent) : ∀ c ∈ e.chars, isDistancePart c := by
  obtain ⟨⟨mark, isMark⟩, sign, ⟨run, digits⟩⟩ := e
  intro c member
  rw [Exponent.chars, List.append_assoc, List.mem_append, List.mem_append, List.mem_singleton]
    at member
  rcases member with rfl | signed | digit
  · rcases isMark with rfl | rfl <;> decide
  · rcases sign with _ | ⟨_, rfl | rfl⟩
    · cases signed
    · rw [List.mem_singleton.1 signed]
      decide
    · rw [List.mem_singleton.1 signed]
      decide
  · exact isDistancePart_of_digits digits c digit

theorem Numeral.isDistancePart_of_mem (n : Numeral) : ∀ c ∈ n.chars, isDistancePart c := by
  obtain ⟨minus, ⟨whole, digits⟩, fraction, exponent⟩ := n
  intro c member
  simp only [Numeral.chars, List.mem_append] at member
  rcases member with ((sign | digit) | behind) | power
  · cases minus with
    | false => cases sign
    | true =>
        rw [List.mem_singleton.1 sign]
        decide
  · exact isDistancePart_of_digits digits c digit
  · cases fraction with
    | none => cases behind
    | some run =>
        rcases List.mem_cons.1 behind with rfl | digit
        · decide
        · exact isDistancePart_of_digits run.2 c digit
  · cases exponent with
    | none => cases power
    | some e => exact e.isDistancePart_of_mem c power

theorem isDistancePart_of_isDistance {s : String} (distance : isDistance s) :
    ∀ c ∈ s.toList, isDistancePart c := by
  obtain ⟨n, rfl⟩ := isDistance_iff_isNumeral.1 distance
  rw [Numeral.text, String.toList_ofList]
  exact n.isDistancePart_of_mem

theorem isBlank_eq_false_of_isDistancePart {c : Char} (part : isDistancePart c) :
    Text.isBlank c = false := by
  rw [isDistancePart, Bool.or_eq_true] at part
  rcases part with digit | other
  · simp only [Text.isDigit, Bool.and_eq_true, decide_eq_true_eq, Char.le_def,
      UInt32.le_iff_toNat_le] at digit
    exact Text.isBlank_eq_false_of_visible (le_trans (by decide) digit.1)
      (digit.2.trans (by decide))
  · simp only [List.contains_cons, List.contains_nil, Bool.or_false, Bool.or_eq_true,
      beq_iff_eq] at other
    rcases other with rfl | rfl | rfl | rfl | rfl <;> decide

theorem IsNumeral.not_isBlank {text : String} (numeral : IsNumeral text) :
    ∀ c ∈ text.toList, Text.isBlank c = false := fun c member =>
  isBlank_eq_false_of_isDistancePart
    (isDistancePart_of_isDistance (isDistance_iff_isNumeral.2 numeral) c member)

theorem not_isNumeral_append_newline {text : String} : ¬ IsNumeral (text ++ "\n") := by
  intro numeral
  have blank := numeral.not_isBlank '\n' (by simp)
  revert blank
  decide

/-- What is left when a text is trimmed is a numeral exactly if nothing but blanks stands
around that numeral. -/
theorem trim_eq_text_iff {text : String} {n : Numeral} :
    Text.trim text = n.text ↔ ∃ front back : String, text = front ++ n.text ++ back ∧
      (∀ c ∈ front.toList, Text.isBlank c) ∧ ∀ c ∈ back.toList, Text.isBlank c := by
  have trimmed : Text.Trimmed n.text.toList :=
    Text.trimmed_of_no_blank (IsNumeral.not_isBlank ⟨n, rfl⟩)
  rw [← String.toList_inj, Text.toList_trim, Text.trimChars_eq_iff]
  constructor
  · rintro ⟨-, front, back, split, blanks⟩
    refine ⟨String.ofList front, String.ofList back, ?_, by simpa using blanks⟩
    rw [← String.toList_inj]
    simpa using split
  · rintro ⟨front, back, rfl, blanks⟩
    exact ⟨trimmed, front.toList, back.toList, by simp, blanks⟩

end Sql

theorem checkDistance_eq_error_iff {text : String} {e : CheckError} :
    checkDistance text = .error e ↔
      ¬ Sql.isDistance text ∧ e = .invalidLiteral .distance text := by
  unfold checkDistance
  by_cases accepted : Sql.isDistance text
  · simp [accepted]
  · simp [accepted, eq_comm]

/-! ## Requests that grow by a distance -/

namespace Request

theorem makeBuffer_eq_error_iff {name text : String} {e : CheckError} :
    makeBuffer name text = .error e ↔ ¬ Sql.isDistance (Text.trim text) ∧
      e = (CheckError.invalidLiteral .distance (Text.trim text)).concerning name := by
  rw [makeBuffer, bind_pure_eq_error_iff]
  cases checked : checkDistance (Text.trim text) with
  | error err =>
      obtain ⟨other, rfl⟩ := checkDistance_eq_error_iff.1 checked
      constructor
      · intro refused
        cases refused
        exact ⟨other, rfl⟩
      · rintro ⟨-, rfl⟩
        rfl
  | ok _ =>
      have number := checkDistance_eq_ok_iff.1 checked
      constructor
      · intro refused
        cases refused
      · exact fun refused => absurd number refused.1

/-- Under names that are accepted, a request is made if its buffer is. -/
theorem make_buffer_eq {name source : String} (named : Sql.isIdentifier name)
    (sourced : Sql.isIdentifier source) (free : name ≠ sourceAlias) (feature : FeatureKind)
    (geometry : GeometryKind) (text : String) :
    make name feature geometry source none (some text) =
      (fun operation => ⟨name, feature, geometry, source, operation⟩) <$> makeBuffer name text := by
  have nameAccepted : checkIdentifier name = .ok () := checkIdentifier_eq_ok_iff.2 named
  have sourceAccepted : checkIdentifier source = .ok () := checkIdentifier_eq_ok_iff.2 sourced
  rw [make, nameAccepted, sourceAccepted, if_neg free, makeOperation, ← bind_pure_comp]
  -- What is left to compare does not depend on the distance.
  generalize makeBuffer name text = made
  rfl

/-- **A distance is a numeral, from between blanks.**  A text is accepted as a distance exactly
if it is a numeral as a whole, so that not even a newline may follow.  A request whose names are
accepted is made exactly if what is left of its text without the blanks around it is a numeral,
and that is the distance it then holds; otherwise it is refused for it. -/
theorem distances_are_numerals :
    (∀ text : String,
      (checkDistance text = .ok () ↔ Sql.IsNumeral text) ∧
      (∀ e, checkDistance text = .error e ↔
        ¬ Sql.IsNumeral text ∧ e = .invalidLiteral .distance text) ∧
      checkDistance (text ++ "\n") ≠ .ok () ∧
      ∀ n : Sql.Numeral, Text.trim text = n.text ↔
        ∃ front back : String, text = front ++ n.text ++ back ∧
          (∀ c ∈ front.toList, Text.isBlank c) ∧ ∀ c ∈ back.toList, Text.isBlank c) ∧
    ∀ name source, Sql.isIdentifier name → Sql.isIdentifier source → name ≠ sourceAlias →
      ∀ feature geometry text,
        (∀ r, make name feature geometry source none (some text) = .ok r ↔
          Sql.IsNumeral (Text.trim text) ∧
            r = ⟨name, feature, geometry, source, .buffer (Text.trim text)⟩) ∧
        ∀ e, make name feature geometry source none (some text) = .error e ↔
          ¬ Sql.IsNumeral (Text.trim text) ∧
            e = (CheckError.invalidLiteral .distance (Text.trim text)).concerning name := by
  have accepted : ∀ text, checkDistance text = .ok () ↔ Sql.IsNumeral text := fun text =>
    checkDistance_eq_ok_iff.trans Sql.isDistance_iff_isNumeral
  refine ⟨fun text => ⟨accepted text, fun e => ?_, ?_, fun n => Sql.trim_eq_text_iff⟩, ?_⟩
  · rw [checkDistance_eq_error_iff, Sql.isDistance_iff_isNumeral]
  · exact fun newline => Sql.not_isNumeral_append_newline ((accepted _).1 newline)
  · intro name source named sourced free feature geometry text
    rw [make_buffer_eq named sourced free]
    refine ⟨fun r => ?_, fun e => ?_⟩
    · simp only [map_eq_ok_iff, makeBuffer_eq_ok_iff, Sql.isDistance_iff_isNumeral]
      constructor
      · rintro ⟨operation, ⟨numeral, rfl⟩, rfl⟩
        exact ⟨numeral, rfl⟩
      · rintro ⟨numeral, rfl⟩
        exact ⟨_, ⟨numeral, rfl⟩, rfl⟩
    · rw [map_eq_error_iff, makeBuffer_eq_error_iff, Sql.isDistance_iff_isNumeral]

/-- All parts of a numeral, between blanks of which one is no ASCII character. -/
theorem spaced_distance_is_numeral :
    Sql.isIdentifier "around" ∧ Sql.isIdentifier "nodes" ∧ "around" ≠ sourceAlias ∧
      make "around" .node .polygon "nodes" none (some "\u2003-2.50E+07\n") =
        .ok ⟨"around", .node, .polygon, "nodes", .buffer "-2.50E+07"⟩ := by
  have named : Sql.isIdentifier "around" := by decide
  have sourced : Sql.isIdentifier "nodes" := by decide
  have free : "around" ≠ sourceAlias := by decide
  have trimmed : Text.trim "\u2003-2.50E+07\n" = "-2.50E+07" := by decide
  have digits : ∀ run : List Char, (run ≠ [] ∧ run.all Text.isDigit) → Text.Digits run :=
    fun _ => Text.digits_iff.1
  have number : Sql.IsNumeral "-2.50E+07" :=
    ⟨⟨true, ⟨['2'], digits _ (by decide)⟩, some ⟨['5', '0'], digits _ (by decide)⟩,
      some ⟨⟨'E', by decide⟩, some ⟨'+', by decide⟩, ⟨['0', '7'], digits _ (by decide)⟩⟩⟩, rfl⟩
  refine ⟨named, sourced, free, ?_⟩
  rw [((distances_are_numerals.2 _ _ named sourced free .node .polygon _).1 _).2
    ⟨by rwa [trimmed], rfl⟩, trimmed]

example : ["", "1.", ".5", "1e", "1e+", "--1", "+1", "1.5.2", "1e1.5", "1\n", "\uff11"].all
    fun text => !Sql.isDistance text := by
  decide

end Request

end MapAudit
