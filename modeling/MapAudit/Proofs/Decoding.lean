import MapAudit.Proofs.Outcome
import MapAudit.Run.Row

/-!
# What rows decode to

The id of a row is a decimal integer: at most one sign, and then one or more of the ten
digits (`Text.Decimal`).  `Text.int64?` reads exactly the decimal integers that fit in 64
bits, so a row decodes exactly if its first column is one, between blanks, and, where a node
is reported, its second column is there (`Feature.decode_eq_ok_iff`).
-/

namespace MapAudit

set_option autoImplicit false

namespace Text

/-! ## Decimal integers -/

/-- The integer that at most one sign and then one or more digits denote. -/
inductive Decimal : List Char → Int → Prop where
  | unsigned {cs : List Char} (digits : Digits cs) : Decimal cs (Nat.ofDigitChars 10 cs 0)
  | plus {cs : List Char} (digits : Digits cs) : Decimal ('+' :: cs) (Nat.ofDigitChars 10 cs 0)
  | minus {cs : List Char} (digits : Digits cs) : Decimal ('-' :: cs) (-Nat.ofDigitChars 10 cs 0)

theorem digits?_of_digits {cs : List Char} (digits : Digits cs) :
    digits? cs = some (Nat.ofDigitChars 10 cs 0) := by
  rw [digits?, if_pos (digits_iff.2 digits), digitsValue, Nat.ofDigitChars_eq_foldl]

theorem digits_of_digits? {cs : List Char} {n : Nat} (read : digits? cs = some n) : Digits cs := by
  by_cases digits : Digits cs
  · exact digits
  · rw [digits?, if_neg (mt digits_iff.1 digits)] at read
    cases read

theorem not_digits_cons {c : Char} {cs : List Char} (other : ¬ Digit c) : ¬ Digits (c :: cs) :=
  fun digits => other (digits.all c List.mem_cons_self)

theorem signed?_of_decimal {cs : List Char} {n : Int} (decimal : Decimal cs n) :
    signed? cs = some n := by
  cases decimal with
  | unsigned digits =>
      unfold signed?
      split
      · exact absurd digits (not_digits_cons (by decide))
      · exact absurd digits (not_digits_cons (by decide))
      · rw [digits?_of_digits digits]
        rfl
  | plus digits =>
      rw [signed?, digits?_of_digits digits]
      rfl
  | minus digits =>
      rw [signed?, digits?_of_digits digits]
      rfl

/-- **A signed integer is read from exactly the texts that denote it.** -/
theorem signed?_eq_some_iff {cs : List Char} {n : Int} : signed? cs = some n ↔ Decimal cs n := by
  refine ⟨fun read => ?_, signed?_of_decimal⟩
  -- Whatever is read denotes something, and that is then what is read.
  have denotes : ∃ m, Decimal cs m := by
    unfold signed? at read
    split at read
    all_goals
      obtain ⟨value, valued, -⟩ := Option.map_eq_some_iff.1 read
      obtain ⟨size, sized, -⟩ := Option.bind_eq_some_iff.1 valued
      have digits := digits_of_digits? sized
    · exact ⟨_, .minus digits⟩
    · exact ⟨_, .plus digits⟩
    · exact ⟨_, .unsigned digits⟩
  obtain ⟨m, decimal⟩ := denotes
  rw [signed?_of_decimal decimal] at read
  cases read
  exact decimal

/-- The integer fits in 64 bits. -/
def FitsInt64 (n : Int) : Prop :=
  Int64.minValue.toInt ≤ n ∧ n ≤ Int64.maxValue.toInt

/-- A text is read as an integer exactly if it denotes one that fits. -/
theorem int64?_eq_some_iff {s : String} {n : Int} :
    int64? s = some n ↔ Decimal s.toList n ∧ FitsInt64 n := by
  have bounds : ∀ m, (int64Min ≤ m ∧ m ≤ int64Max) ↔ FitsInt64 m := by
    intro m
    rw [FitsInt64, show Int64.minValue.toInt = int64Min from rfl,
      show Int64.maxValue.toInt = int64Max from rfl]
  rw [int64?, ← signed?_eq_some_iff]
  cases read : signed? s.toList with
  | none => simp
  | some m =>
      by_cases fits : FitsInt64 m
      · simp only [if_pos ((bounds m).2 fits), Option.some.injEq]
        exact ⟨fun same => ⟨same, same ▸ fits⟩, And.left⟩
      · simp only [if_neg (mt (bounds m).1 fits), Option.some.injEq, false_iff, reduceCtorEq]
        rintro ⟨rfl, fitting⟩
        exact fits fitting

end Text

namespace Run

/-! ## Rows -/

theorem column?_eq_some_iff {row : Row} {n : Nat} {text : String} :
    column? row n = some text ↔ row[n]? = some (some text) := by
  simp [column?, Option.join_eq_some_iff]

namespace Feature

/-- The id of a row is the integer in its first column, blanks around it dropped. -/
theorem decodeId_eq_ok_iff {row : Row} {id : Int} :
    decodeId row = .ok id ↔ ∃ text, row[0]? = some (some text) ∧
      Text.Decimal (Text.trim text).toList id ∧ Text.FitsInt64 id := by
  simp only [← column?_eq_some_iff, ← Text.int64?_eq_some_iff]
  rw [decodeId]
  cases column? row 0 with
  | none => simp
  | some text =>
      cases read : Text.int64? (Text.trim text) with
      | none => simp [read]
      | some n => simp [read]

/-- The feature of a kind that a row with this id reports. -/
def Reported (row : Row) (id : Int) : ResultKind → Feature → Prop
  | .point, feature => ∃ position, row[1]? = some (some position) ∧ feature = .node id position
  | .way, feature => feature = .way id
  | .relation, feature => feature = .relation id

/-- **A row decodes exactly if its first column is a decimal integer** of at most 64 bits,
between blanks, **and the columns of its kind are there**. -/
theorem decode_eq_ok_iff {kind : ResultKind} {row : Row} {feature : Feature} :
    decode kind row = .ok feature ↔ ∃ text id, row[0]? = some (some text) ∧
      Text.Decimal (Text.trim text).toList id ∧ Text.FitsInt64 id ∧
      Reported row id kind feature := by
  rw [decode, bind_eq_ok_iff]
  simp only [decodeId_eq_ok_iff]
  constructor
  · rintro ⟨id, ⟨text, column, decimal, fits⟩, made⟩
    refine ⟨text, id, column, decimal, fits, ?_⟩
    cases kind with
    | point =>
        dsimp only at made
        split at made
        · next position placed =>
          cases made
          exact ⟨position, column?_eq_some_iff.1 placed, rfl⟩
        · cases made
    | way =>
        cases made
        rfl
    | relation =>
        cases made
        rfl
  · rintro ⟨text, id, column, decimal, fits, reports⟩
    refine ⟨id, ⟨text, column, decimal, fits⟩, ?_⟩
    cases kind with
    | point =>
        obtain ⟨position, placed, rfl⟩ := reports
        dsimp only
        rw [column?_eq_some_iff.2 placed]
        rfl
    | way =>
        cases reports
        rfl
    | relation =>
        cases reports
        rfl

/-- What is wrong with a row that does not decode is its shape. -/
theorem exists_fault_of_decode {kind : ResultKind} {row : Row} {e : RunError}
    (refused : decode kind row = .error e) : ∃ fault, e = .rowShape fault := by
  rw [decode, bind_eq_error_iff] at refused
  rcases refused with unread | ⟨id, -, unplaced⟩
  · rw [decodeId] at unread
    split at unread
    · cases unread
      exact ⟨_, rfl⟩
    · split at unread
      · cases unread
      · cases unread
        exact ⟨_, rfl⟩
  · cases kind with
    | point =>
        dsimp only at unplaced
        split at unplaced
        · cases unplaced
        · cases unplaced
          exact ⟨_, rfl⟩
    | way => cases unplaced
    | relation => cases unplaced

end Feature

end Run

end MapAudit
