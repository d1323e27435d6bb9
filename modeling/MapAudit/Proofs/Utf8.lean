import MapAudit.Text.Utf8
import Mathlib.Data.String.Basic

/-!
# Texts among bytes

The bytes of a text show that text (`ofBytes_bytes`), so bytes are those of the text they
show exactly if they are UTF-8 (`bytes_ofBytes_iff`); all others show a text with bytes of
its own.

Texts are compared character by character.  This is also the order of their bytes: the
smaller one of two characters has the smaller bytes, whatever follows them (`encoded_lt`),
because the first byte tells how many there are, and more bytes begin with a larger one.
-/

namespace MapAudit

set_option autoImplicit false

open String (utf8EncodeChar)

namespace Text

/-- Bytes that a text is written with. -/
def IsUtf8 (b : Bytes) : Prop :=
  ∃ s, bytes s = b

theorem isUtf8_bytes (s : String) : IsUtf8 (bytes s) :=
  ⟨s, rfl⟩

/-! ## Showing what was written -/

theorem char?_encoded (c : Char) (rest : Bytes) : char? (utf8EncodeChar c ++ rest) = some c := by
  rw [char?, List.toByteArray_append]
  exact ByteArray.utf8DecodeChar?_utf8EncodeChar_append

theorem shown_append (passed rest : Bytes) :
    shown passed.length (passed ++ rest) = shown 0 rest := by
  induction passed with
  | nil => rfl
  | cons b passed ih => exact ih

theorem exists_encoded (c : Char) : ∃ first others, utf8EncodeChar c = first :: others :=
  List.exists_cons_of_ne_nil (by simp)

theorem shown_encoded (c : Char) (rest : Bytes) :
    shown 0 (utf8EncodeChar c ++ rest) = c :: shown 0 rest := by
  obtain ⟨first, others, encoded⟩ := exists_encoded c
  have size : c.utf8Size - 1 = others.length := by
    rw [← String.length_utf8EncodeChar, encoded]
    rfl
  have decoded := char?_encoded c rest
  rw [encoded, List.cons_append] at decoded ⊢
  rw [shown, decoded]
  dsimp only
  rw [size, shown_append]

/-- The bytes of a text show it. -/
theorem ofBytes_bytes (s : String) : ofBytes (bytes s) = s := by
  have all : ∀ cs : List Char, shown 0 (cs.flatMap utf8EncodeChar) = cs := by
    intro cs
    induction cs with
    | nil => rfl
    | cons c cs ih => rw [List.flatMap_cons, shown_encoded, ih]
  rw [ofBytes, bytes, all, String.ofList_toList]

/-- **Bytes are those of the text they show exactly if they are UTF-8.** -/
theorem bytes_ofBytes_iff {b : Bytes} : bytes (ofBytes b) = b ↔ IsUtf8 b := by
  constructor
  · intro same
    exact ⟨ofBytes b, same⟩
  · rintro ⟨s, rfl⟩
    rw [ofBytes_bytes]

instance (b : Bytes) : Decidable (IsUtf8 b) :=
  decidable_of_iff _ bytes_ofBytes_iff

/-! ## The order of texts -/

theorem ofNat_lt_ofNat_iff {m n : Nat} (left : m < 256) (right : n < 256) :
    UInt8.ofNat m < UInt8.ofNat n ↔ m < n := by
  rw [UInt8.lt_iff_toNat_lt, UInt8.toNat_ofNat_of_lt' left, UInt8.toNat_ofNat_of_lt' right]

theorem ofNat_eq_ofNat_iff {m n : Nat} (left : m < 256) (right : n < 256) :
    UInt8.ofNat m = UInt8.ofNat n ↔ m = n := by
  rw [← UInt8.toNat_inj, UInt8.toNat_ofNat_of_lt' left, UInt8.toNat_ofNat_of_lt' right]

/-- The smaller number has the smaller digit, after digits that are equal. -/
theorem digits_lt {m n : Nat} (smaller : m < n) (inRange : n < 0x110000) :
    m / 262144 % 8 < n / 262144 % 8 ∨ m / 262144 % 8 = n / 262144 % 8 ∧
      (m / 4096 % 64 < n / 4096 % 64 ∨ m / 4096 % 64 = n / 4096 % 64 ∧
        (m / 64 % 64 < n / 64 % 64 ∨ m / 64 % 64 = n / 64 % 64 ∧ m % 64 < n % 64)) := by
  have digit : ∀ {a b : Nat}, a < b → a / 64 < b / 64 ∨ a / 64 = b / 64 ∧ a % 64 < b % 64 := by
    omega
  rcases digit smaller with third | ⟨same, last⟩
  · rcases digit third with second | ⟨same, third⟩
    · rcases digit second with lead | ⟨same, second⟩
      · exact Or.inl (by omega)
      · exact Or.inr ⟨by omega, Or.inl (by omega)⟩
    · exact Or.inr ⟨by omega, Or.inr ⟨by omega, Or.inl third⟩⟩
  · exact Or.inr ⟨by omega, Or.inr ⟨by omega, Or.inr ⟨by omega, last⟩⟩⟩

/-- **The smaller character has the smaller bytes**, whatever follows. -/
theorem encoded_lt {c d : Char} (smaller : c < d) (rest more : Bytes) :
    utf8EncodeChar c ++ rest < utf8EncodeChar d ++ more := by
  have values : c.val.toNat < d.val.toNat := UInt32.lt_iff_toNat_lt.1 (Char.lt_def.1 smaller)
  have inRange : d.val.toNat < 0x110000 := by
    rcases d.valid with low | ⟨-, high⟩
    · exact Nat.lt_trans low (by decide)
    · exact high
  unfold utf8EncodeChar
  dsimp only
  by_cases long : 0xFFFF < c.val.toNat
  · -- Both have four bytes, which are compared one after another.
    rw [if_neg (by omega), if_neg (by omega), if_neg (by omega), if_neg (by omega),
      if_neg (by omega), if_neg (by omega)]
    simp (disch := omega) only [List.cons_append, List.nil_append, List.cons_lt_cons_iff,
      ofNat_lt_ofNat_iff, ofNat_eq_ofNat_iff, Nat.add_lt_add_iff_right, Nat.add_right_cancel_iff]
    have digits := digits_lt values inRange
    tauto
  · split_ifs <;>
      simp (disch := omega) only [List.cons_append, List.nil_append, List.cons_lt_cons_iff,
        ofNat_lt_ofNat_iff, ofNat_eq_ofNat_iff, Nat.add_lt_add_iff_right,
        Nat.add_right_cancel_iff] <;>
      omega

/-- What begins alike is compared by the rest. -/
theorem append_lt_append_iff {front xs ys : Bytes} :
    front ++ xs < front ++ ys ↔ xs < ys := by
  induction front with
  | nil => rfl
  | cons x front ih => simp [ih]

/-- Bytes are compared as the characters they encode. -/
theorem flatMap_encoded_lt_iff {cs ds : List Char} :
    cs.flatMap utf8EncodeChar < ds.flatMap utf8EncodeChar ↔ cs < ds := by
  induction cs generalizing ds with
  | nil =>
      cases ds with
      | nil => simp
      | cons d ds =>
          obtain ⟨first, others, bytes⟩ := exists_encoded d
          simp [bytes, List.nil_lt_cons]
  | cons c cs ih =>
      cases ds with
      | nil => simp [List.not_lt_nil]
      | cons d ds =>
          rw [List.flatMap_cons, List.flatMap_cons, List.cons_lt_cons_iff]
          rcases lt_trichotomy c d with smaller | rfl | larger
          · exact iff_of_true (encoded_lt smaller _ _) (Or.inl smaller)
          · simp [append_lt_append_iff, ih]
          · refine iff_of_false (List.lt_asymm (encoded_lt larger _ _)) ?_
            rintro (smaller | ⟨rfl, -⟩)
            · exact lt_asymm smaller larger
            · exact lt_irrefl c larger

/-- The order of texts is that of their bytes. -/
theorem bytes_lt_iff {a b : String} : bytes a < bytes b ↔ a < b := by
  rw [bytes, bytes, flatMap_encoded_lt_iff, String.lt_iff]

/-- **Texts are in the order of their bytes.** -/
theorem bytes_le_iff {a b : String} : bytes a ≤ bytes b ↔ a ≤ b := by
  rw [← List.not_lt, ← not_lt, bytes_lt_iff]

end Text

end MapAudit
