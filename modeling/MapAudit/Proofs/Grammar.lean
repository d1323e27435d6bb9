import MapAudit.Sql.Literal
import Mathlib.Computability.Language

/-!
# The words of a statement as languages

What a name and a distance may look like, as regular languages, apart from the scanners
that decide it.  The scanners accept exactly the words of the languages
(`isIdentifier_iff`, `isDistance_iff`).  A scanner of a distance takes as many digits as
there are; it loses nothing by that, since what may follow the digits never begins with
one.
-/

open scoped Computability

namespace MapAudit.Sql

set_option autoImplicit false

open Text (Digit Digits isDigit_iff afterDigits? afterSign)

namespace Grammar

/-- One character of a class. -/
def one (within : Char → Prop) : Language Char :=
  {word | ∃ c, within c ∧ word = [c]}

/-- The class `[A-Za-z_]`. -/
def Letter (c : Char) : Prop :=
  'A' ≤ c ∧ c ≤ 'Z' ∨ 'a' ≤ c ∧ c ≤ 'z' ∨ c = '_'

/-- The words of `[A-Za-z_][A-Za-z0-9_]*`. -/
def identifier : Language Char :=
  one Letter * (one fun c => Letter c ∨ Digit c)∗

/-- The words of `[0-9]+`. -/
def digits : Language Char :=
  one Digit * (one Digit)∗

/-- The words of `([eE][-+]?[0-9]+)?`. -/
def exponent : Language Char :=
  1 + one (fun c => c = 'e' ∨ c = 'E') * ((1 + one fun c => c = '-' ∨ c = '+') * digits)

/-- The words of `(\.[0-9]+)?([eE][-+]?[0-9]+)?`. -/
def fraction : Language Char :=
  (1 + one (· = '.') * digits) * exponent

/-- The words of `-?[0-9]+(\.[0-9]+)?([eE][-+]?[0-9]+)?`. -/
def distance : Language Char :=
  (1 + one (· = '-')) * (digits * fraction)

/-! ## Words -/

section Words

variable {within : Char → Prop} {rest : Language Char} {word : List Char} {c : Char}

theorem nil_mem_one_mul : [] ∉ one within * rest := by
  rintro ⟨front, ⟨c, -, rfl⟩, back, -, same⟩
  cases same

theorem cons_mem_one_mul : c :: word ∈ one within * rest ↔ within c ∧ word ∈ rest := by
  constructor
  · rintro ⟨front, ⟨first, member, rfl⟩, back, follows, same⟩
    cases same
    exact ⟨member, follows⟩
  · rintro ⟨member, follows⟩
    exact ⟨[c], ⟨c, member, rfl⟩, word, follows, rfl⟩

/-- A word may begin with a character of a class, or lack it. -/
theorem mem_optional_mul :
    word ∈ (1 + one within) * rest ↔ word ∈ rest ∨ word ∈ one within * rest := by
  rw [add_mul, one_mul, Language.mem_add]

theorem mem_one_kstar : word ∈ (one within)∗ ↔ ∀ c ∈ word, within c := by
  induction word with
  | nil => simp [Language.nil_mem_kstar]
  | cons c word ih =>
      rw [← Language.one_add_self_mul_kstar_eq_kstar, Language.mem_add, cons_mem_one_mul, ih]
      simp [Language.mem_one]

end Words

theorem mem_digits_iff {word : List Char} : word ∈ digits ↔ Digits word := by
  unfold digits
  cases word with
  | nil => exact iff_of_false nil_mem_one_mul fun run => run.nonempty rfl
  | cons c word =>
      rw [cons_mem_one_mul, mem_one_kstar, ← List.forall_mem_cons]
      exact ⟨fun all => ⟨by simp, all⟩, fun run => run.all⟩

end Grammar

open Grammar

/-! ## Names -/

theorem isIdentifierStart_iff {c : Char} : isIdentifierStart c = true ↔ Letter c := by
  simp [isIdentifierStart, Letter, or_assoc]

theorem isIdentifierWord_iff {word : List Char} :
    isIdentifierWord word = true ↔ word ∈ identifier := by
  unfold identifier
  cases word with
  | nil => simp [isIdentifierWord, nil_mem_one_mul]
  | cons c word =>
      simp [isIdentifierWord, cons_mem_one_mul, mem_one_kstar, isIdentifierPart,
        isIdentifierStart_iff, isDigit_iff]

/-- **A name is a word of the language of names** that the store keeps whole. -/
theorem isIdentifier_iff {s : String} :
    isIdentifier s = true ↔ s.toList ∈ identifier ∧ s.utf8ByteSize ≤ maxIdentifierBytes := by
  rw [isIdentifier, Bool.and_eq_true, decide_eq_true_eq, isIdentifierWord_iff, and_comm]

/-! ## Distances -/

/-- The digits of a text are all of those it begins with. -/
theorem afterDigits?_eq_some_iff {text rest : List Char} :
    afterDigits? text = some rest ↔
      ∃ run ∈ digits, text = run ++ rest ∧ ∀ c tail, rest = c :: tail → ¬ Digit c := by
  constructor
  · intro read
    cases text with
    | nil => cases read
    | cons c text =>
        rw [afterDigits?] at read
        split at read
        · rename_i digit
          cases read
          refine ⟨c :: text.takeWhile Text.isDigit, mem_digits_iff.2 ⟨by simp, ?_⟩, by simp, ?_⟩
          · intro other member
            rcases List.mem_cons.1 member with rfl | later
            · exact isDigit_iff.1 digit
            · exact isDigit_iff.1 (List.all_eq_true.1 List.all_takeWhile other later)
          · intro other tail left digit
            have stop := List.head?_dropWhile_not Text.isDigit text
            rw [left] at stop
            simp [isDigit_iff.2 digit] at stop
        · cases read
  · rintro ⟨run, member, rfl, stop⟩
    obtain ⟨some, all⟩ := mem_digits_iff.1 member
    obtain ⟨c, run, rfl⟩ := List.exists_cons_of_ne_nil some
    have first : Text.isDigit c = true := isDigit_iff.2 (all c List.mem_cons_self)
    have others : ∀ other ∈ run, Text.isDigit other = true := fun other later =>
      isDigit_iff.2 (all other (List.mem_cons_of_mem c later))
    rw [List.cons_append, afterDigits?, if_pos first, List.dropWhile_append_of_pos others]
    cases rest with
    | nil => rfl
    | cons next rest =>
        have ends : ¬ Text.isDigit next = true := fun digit =>
          stop next rest rfl (isDigit_iff.1 digit)
        rw [List.dropWhile_cons_of_neg ends]

/-- A text of digits alone has nothing after them. -/
theorem afterDigits?_eq_nil_iff {text : List Char} : afterDigits? text = some [] ↔ text ∈ digits := by
  rw [afterDigits?_eq_some_iff]
  constructor
  · rintro ⟨run, member, rfl, -⟩
    rwa [List.append_nil]
  · exact fun member => ⟨text, member, by simp, by simp⟩

/-- Digits that are followed by a word of a language whose words begin with no digit. -/
theorem exists_afterDigits?_iff {text : List Char} {follows : Language Char}
    (stop : ∀ c word, c :: word ∈ follows → ¬ Digit c) :
    (∃ rest, afterDigits? text = some rest ∧ rest ∈ follows) ↔ text ∈ digits * follows := by
  rw [Language.mem_mul]
  constructor
  · rintro ⟨rest, read, member⟩
    obtain ⟨run, digits, rfl, -⟩ := afterDigits?_eq_some_iff.1 read
    exact ⟨run, digits, rest, member, rfl⟩
  · rintro ⟨run, digits, rest, member, rfl⟩
    refine ⟨rest, afterDigits?_eq_some_iff.2 ⟨run, digits, rfl, ?_⟩, member⟩
    rintro c tail rfl
    exact stop c tail member

theorem afterSign_mem_digits_iff {text : List Char} :
    afterSign text ∈ digits ↔ text ∈ (1 + one fun c => c = '-' ∨ c = '+') * digits := by
  have unsigned : ∀ {c : Char} {text : List Char}, c = '-' ∨ c = '+' → c :: text ∉ digits := by
    intro c text sign member
    have digit : Digit c := (mem_digits_iff.1 member).2 c List.mem_cons_self
    unfold Digit at digit
    rcases sign with rfl | rfl
    · exact absurd digit (by decide)
    · exact absurd digit (by decide)
  rw [mem_optional_mul]
  unfold afterSign
  split
  · simp [unsigned, cons_mem_one_mul]
  · simp [unsigned, cons_mem_one_mul]
  · rename_i notMinus notPlus
    cases text with
    | nil => simp [nil_mem_one_mul]
    | cons c text =>
        have plain : ¬ (c = '-' ∨ c = '+') := by
          rintro (rfl | rfl)
          · exact notMinus text rfl
          · exact notPlus text rfl
        simp [cons_mem_one_mul, plain]

theorem isExponent_iff {text : List Char} : isExponent text = true ↔ text ∈ exponent := by
  unfold exponent
  rw [Language.mem_add, Language.mem_one]
  cases text with
  | nil => simp [isExponent]
  | cons c text =>
      rw [cons_mem_one_mul, ← afterSign_mem_digits_iff, ← afterDigits?_eq_nil_iff]
      simp [isExponent]

theorem first_of_exponent {c : Char} {word : List Char} (member : c :: word ∈ exponent) :
    c = 'e' ∨ c = 'E' := by
  unfold exponent at member
  rw [Language.mem_add, Language.mem_one, cons_mem_one_mul] at member
  rcases member with empty | ⟨mark, -⟩
  · cases empty
  · exact mark

theorem mem_fraction_iff {word : List Char} :
    word ∈ fraction ↔ word ∈ exponent ∨ word ∈ one (· = '.') * (digits * exponent) := by
  rw [fraction, add_mul, one_mul, mul_assoc, Language.mem_add]

theorem first_of_fraction {c : Char} {word : List Char} (member : c :: word ∈ fraction) :
    c = '.' ∨ c = 'e' ∨ c = 'E' := by
  rw [mem_fraction_iff, cons_mem_one_mul] at member
  rcases member with whole | ⟨point, -⟩
  · exact Or.inr (first_of_exponent whole)
  · exact Or.inl point

theorem isFraction_iff {text : List Char} : isFraction text = true ↔ text ∈ fraction := by
  have stop : ∀ c word, c :: word ∈ exponent → ¬ Digit c := by
    intro c word member
    rcases first_of_exponent member with rfl | rfl <;> unfold Digit <;> decide
  rw [mem_fraction_iff]
  unfold isFraction
  split
  · rename_i text
    have point : '.' :: text ∉ exponent := fun member =>
      absurd (first_of_exponent member) (by decide)
    rw [cons_mem_one_mul, ← exists_afterDigits?_iff stop]
    cases afterDigits? text with
    | none => simp [point]
    | some rest => simp [point, isExponent_iff]
  · rename_i noPoint
    have none : text ∉ one (· = '.') * (digits * exponent) := by
      cases text with
      | nil => exact nil_mem_one_mul
      | cons c text => exact fun member => noPoint text (by rw [(cons_mem_one_mul.1 member).1])
    simp [none, isExponent_iff]

theorem isMagnitude_iff {text : List Char} :
    isMagnitude text = true ↔ text ∈ digits * fraction := by
  have stop : ∀ c word, c :: word ∈ fraction → ¬ Digit c := by
    intro c word member
    rcases first_of_fraction member with rfl | rfl | rfl <;> unfold Digit <;> decide
  rw [← exists_afterDigits?_iff stop]
  unfold isMagnitude
  cases afterDigits? text with
  | none => simp
  | some rest => simp [isFraction_iff]

/-- **A distance is a word of the language of distances.** -/
theorem isDistance_iff {s : String} : isDistance s = true ↔ s.toList ∈ distance := by
  unfold distance isDistance
  rw [mem_optional_mul]
  split
  · rename_i text signed
    have unsigned : '-' :: text ∉ digits * fraction := by
      rw [digits, mul_assoc, cons_mem_one_mul]
      rintro ⟨digit, -⟩
      unfold Digit at digit
      exact absurd digit (by decide)
    rw [signed, cons_mem_one_mul]
    simp [unsigned, isMagnitude_iff]
  · rename_i unsigned
    have none : s.toList ∉ one (· = '-') * (digits * fraction) := by
      cases chars : s.toList with
      | nil => exact nil_mem_one_mul
      | cons c text => exact fun member => unsigned text (by rw [chars, (cons_mem_one_mul.1 member).1])
    simp [none, isMagnitude_iff]

end MapAudit.Sql
