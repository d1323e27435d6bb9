/-!
# Decimal numbers in text

`afterDigits?` and `afterSign` pass over the parts that numbers are written with.
`digits?` reads a run of digits, and `int64?` a signed 64-bit integer: an optional
single sign, at least one digit, nothing else.
-/

namespace MapAudit.Text

set_option autoImplicit false

/-! ## Digits -/

/-- One of the ten ASCII digits. -/
def Digit (c : Char) : Prop :=
  '0' ≤ c ∧ c ≤ '9'

instance (c : Char) : Decidable (Digit c) :=
  inferInstanceAs (Decidable ('0' ≤ c ∧ c ≤ '9'))

def isDigit (c : Char) : Bool :=
  decide ('0' ≤ c) && decide (c ≤ '9')

theorem isDigit_iff {c : Char} : isDigit c = true ↔ Digit c := by
  simp [isDigit, Digit]

/-- One or more digits. -/
structure Digits (cs : List Char) : Prop where
  nonempty : cs ≠ []
  all : ∀ c ∈ cs, Digit c

theorem digits_iff {cs : List Char} : (cs ≠ [] ∧ cs.all isDigit) ↔ Digits cs := by
  simp only [List.all_eq_true, isDigit_iff]
  exact ⟨fun ⟨nonempty, all⟩ => ⟨nonempty, all⟩, fun digits => ⟨digits.nonempty, digits.all⟩⟩

/-! ## Passing over -/

/-- What follows one or more digits. -/
def afterDigits? : List Char → Option (List Char)
  | [] => none
  | c :: rest => if isDigit c then some (rest.dropWhile isDigit) else none

/-- What follows an optional sign. -/
def afterSign : List Char → List Char
  | '-' :: cs => cs
  | '+' :: cs => cs
  | cs => cs

theorem length_afterDigits? {cs rest : List Char} (found : afterDigits? cs = some rest) :
    rest.length < cs.length := by
  cases cs with
  | nil => simp [afterDigits?] at found
  | cons c more =>
      simp only [afterDigits?, Option.ite_none_right_eq_some, Option.some.injEq] at found
      rw [← found.2]
      exact Nat.lt_succ_of_le (List.dropWhile_suffix isDigit).length_le

theorem length_afterSign (cs : List Char) : (afterSign cs).length ≤ cs.length := by
  unfold afterSign
  split <;> simp

/-! ## Integers -/

/-- The value of a digit string, most significant digit first. -/
def digitsValue (cs : List Char) : Nat :=
  cs.foldl (fun n c => 10 * n + (c.toNat - '0'.toNat)) 0

/-- The value of a text of one or more digits. -/
def digits? (cs : List Char) : Option Nat :=
  if cs ≠ [] ∧ cs.all isDigit then some (digitsValue cs) else none

/-- The value of an optional sign followed by one or more digits. -/
def signed? : List Char → Option Int
  | '-' :: cs => (digits? cs).map fun n => -(n : Int)
  | '+' :: cs => (digits? cs).map fun n => (n : Int)
  | cs => (digits? cs).map fun n => (n : Int)

/-- The least and the greatest signed 64-bit integer. -/
def int64Min : Int := -9223372036854775808

@[inherit_doc int64Min]
def int64Max : Int := 9223372036854775807

/-- The signed 64-bit integer a text denotes. -/
def int64? (s : String) : Option Int :=
  match signed? s.toList with
  | some n => if int64Min ≤ n ∧ n ≤ int64Max then some n else none
  | none => none

end MapAudit.Text
