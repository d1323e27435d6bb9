/-!
# White space and trimming

The characters with the Unicode property `White_Space`, and `trim`, which drops
them from both ends of a text.  Main statements: `trim` leaves nothing blank at
either end (`trimChars_head`, `trimChars_last`), and a text that is already
trimmed is kept (`trimChars_of_trimmed`).
-/

namespace MapAudit.Text

set_option autoImplicit false

/-- The code points with the property `White_Space`, as inclusive ranges in
increasing order. -/
def blankRanges : List (Nat × Nat) :=
  [(0x09, 0x0D), (0x20, 0x20), (0x85, 0x85), (0xA0, 0xA0), (0x1680, 0x1680),
   (0x2000, 0x200A), (0x2028, 0x2029), (0x202F, 0x202F), (0x205F, 0x205F), (0x3000, 0x3000)]

/-- Whether a code point lies in one of the inclusive ranges. -/
def inRanges (ranges : List (Nat × Nat)) (n : Nat) : Bool :=
  ranges.any fun range => decide (range.1 ≤ n) && decide (n ≤ range.2)

/-- Whether a character is white space. -/
def isBlank (c : Char) : Bool :=
  inRanges blankRanges c.toNat

/-- Drop the blanks at both ends. -/
def trimChars (cs : List Char) : List Char :=
  ((cs.dropWhile isBlank).reverse.dropWhile isBlank).reverse

def trim (s : String) : String :=
  String.ofList (trimChars s.toList)

/-- A trimmed text neither begins nor ends with a blank. -/
def Trimmed (cs : List Char) : Prop :=
  (∀ c ∈ cs.head?, isBlank c = false) ∧ ∀ c ∈ cs.getLast?, isBlank c = false

/-- The visible ASCII characters are not blank. -/
theorem isBlank_eq_false_of_visible {c : Char} (low : 0x21 ≤ c.toNat) (high : c.toNat ≤ 0x7E) :
    isBlank c = false := by
  simp only [isBlank, inRanges, blankRanges, List.any_cons, List.any_nil, Bool.or_false,
    Bool.or_eq_false_iff, Bool.and_eq_false_iff, decide_eq_false_iff_not]
  omega

@[simp] theorem toList_trim (s : String) : (trim s).toList = trimChars s.toList := by
  simp [trim]

theorem head?_dropWhile_isBlank (cs : List Char) (c : Char)
    (first : c ∈ (cs.dropWhile isBlank).head?) : isBlank c = false := by
  have := List.head?_dropWhile_not isBlank cs
  rw [Option.mem_def] at first
  simpa [first] using this

theorem trimChars_last (cs : List Char) (c : Char) (last : c ∈ (trimChars cs).getLast?) :
    isBlank c = false := by
  rw [trimChars, List.getLast?_reverse] at last
  exact head?_dropWhile_isBlank _ c last

theorem trimChars_head (cs : List Char) (c : Char) (first : c ∈ (trimChars cs).head?) :
    isBlank c = false := by
  rw [trimChars, List.head?_reverse] at first
  have suffix := List.dropWhile_suffix isBlank (l := (cs.dropWhile isBlank).reverse)
  have whole : ((cs.dropWhile isBlank).reverse).getLast? = some c := by
    obtain ⟨front, split⟩ := suffix
    rw [← split, List.getLast?_append]
    rw [Option.mem_def] at first
    simp [first]
  rw [List.getLast?_reverse] at whole
  exact head?_dropWhile_isBlank cs c whole

/-- What `trim` leaves is trimmed. -/
theorem trimmed_trimChars (cs : List Char) : Trimmed (trimChars cs) :=
  ⟨trimChars_head cs, trimChars_last cs⟩

theorem dropWhile_isBlank_of_head {cs : List Char} (front : ∀ c ∈ cs.head?, isBlank c = false) :
    cs.dropWhile isBlank = cs := by
  cases cs with
  | nil => rfl
  | cons c rest => simp [List.dropWhile, front c (by simp)]

/-- A trimmed text is its own trimming. -/
theorem trimChars_of_trimmed {cs : List Char} (trimmed : Trimmed cs) : trimChars cs = cs := by
  rw [trimChars, dropWhile_isBlank_of_head trimmed.1, dropWhile_isBlank_of_head, List.reverse_reverse]
  intro c first
  rw [List.head?_reverse] at first
  exact trimmed.2 c first

theorem trim_trim (s : String) : trim (trim s) = trim s := by
  rw [trim, toList_trim, trimChars_of_trimmed (trimmed_trimChars s.toList), trim]

end MapAudit.Text
