import MapAudit.Json.Basic
import MapAudit.Text.Cut
import MapAudit.Text.Hex
import MapAudit.Text.Decimal

/-!
# JSON tokens

`tokens` cuts a text into tokens.  Every scanner takes what stands after the first
character of a token, and returns what stands after its last.
-/

namespace MapAudit.Json

set_option autoImplicit false

inductive Token where
  | openObject
  | closeObject
  | openArray
  | closeArray
  | colon
  | comma
  /-- One of `null`, `true` and `false`, or a number. -/
  | literal (value : Value)
  | string (units : List StringUnit)

/-- Whether a character may stand between tokens. -/
def isGap (c : Char) : Bool :=
  c = ' ' || c = '\t' || c = '\n' || c = '\r'

/-! ## Strings -/

/-- The character that a backslash and a letter stand for. -/
def escaped? (c : Char) : Option Char :=
  match c with
  | '"' => some '"'
  | '\\' => some '\\'
  | '/' => some '/'
  | 'b' => some (Char.ofNat 0x08)
  | 'f' => some (Char.ofNat 0x0C)
  | 'n' => some '\n'
  | 'r' => some '\r'
  | 't' => some '\t'
  | _ => none

/-- The unit of a code below 2^16. -/
def unitOf (code : Nat) : StringUnit :=
  if 0xD800 ≤ code ∧ code ≤ 0xDFFF then .surrogate code else .char (Char.ofNat code)

/-- Read a string up to its closing quote. -/
def scanString : List Char → Option (List StringUnit × List Char)
  | [] => none
  | '"' :: rest => some ([], rest)
  | '\\' :: 'u' :: a :: b :: c :: d :: rest =>
      match Text.Hex.value? [a, b, c, d] with
      | some code => (scanString rest).map fun found => (unitOf code :: found.1, found.2)
      | none => none
  | '\\' :: c :: rest =>
      match escaped? c with
      | some c => (scanString rest).map fun found => (.char c :: found.1, found.2)
      | none => none
  | c :: rest =>
      if c = '\\' ∨ c.toNat < 0x20 then none
      else (scanString rest).map fun found => (.char c :: found.1, found.2)

theorem length_scanString {cs rest : List Char} {us : List StringUnit}
    (found : scanString cs = some (us, rest)) : rest.length < cs.length := by
  fun_induction scanString cs generalizing us rest with
  | case1 => cases found
  | case2 more => cases found; simp
  | case3 a b c d more code _ ih | case5 c more _ _ _ ih | case8 c more _ _ _ _ ih =>
      obtain ⟨⟨_, _⟩, inner, same⟩ := Option.map_eq_some_iff.mp found
      cases same
      have := ih inner
      simp only [List.length_cons]
      omega
  | case4 | case6 | case7 => cases found

/-! ## Numbers -/

/-- What stands after the whole part of a number, which has no leading zeros. -/
def afterWhole? : List Char → Option (List Char)
  | '0' :: rest => some rest
  | cs => Text.afterDigits? cs

def afterFraction : List Char → List Char
  | '.' :: rest => (Text.afterDigits? rest).getD ('.' :: rest)
  | cs => cs

def afterExponent : List Char → List Char
  | [] => []
  | c :: rest =>
      if c = 'e' ∨ c = 'E' then (Text.afterDigits? (Text.afterSign rest)).getD (c :: rest) else c :: rest

def afterNumber? : List Char → Option (List Char)
  | '-' :: rest => (afterWhole? rest).map fun cs => afterExponent (afterFraction cs)
  | cs => (afterWhole? cs).map fun cs => afterExponent (afterFraction cs)

theorem length_afterWhole? {cs rest : List Char} (found : afterWhole? cs = some rest) :
    rest.length < cs.length := by
  unfold afterWhole? at found
  split at found
  · simp only [Option.some.injEq] at found
    simp [found]
  · exact Text.length_afterDigits? found

theorem length_afterFraction (cs : List Char) : (afterFraction cs).length ≤ cs.length := by
  unfold afterFraction
  split
  · rename_i rest
    cases found : Text.afterDigits? rest with
    | none => simp
    | some more =>
        have := Text.length_afterDigits? found
        simp only [Option.getD_some, List.length_cons]
        omega
  · exact Nat.le_refl _

theorem length_afterExponent (cs : List Char) : (afterExponent cs).length ≤ cs.length := by
  unfold afterExponent
  split
  · exact Nat.le_refl _
  · rename_i c rest
    split
    · cases found : Text.afterDigits? (Text.afterSign rest) with
      | none => simp
      | some more =>
          have := Text.length_afterDigits? found
          have := Text.length_afterSign rest
          simp only [Option.getD_some, List.length_cons]
          omega
    · exact Nat.le_refl _

theorem length_afterNumber? {cs rest : List Char} (found : afterNumber? cs = some rest) :
    rest.length < cs.length := by
  unfold afterNumber? at found
  split at found <;>
    · obtain ⟨more, whole, rfl⟩ := Option.map_eq_some_iff.mp found
      have := length_afterWhole? whole
      have := length_afterFraction more
      have := length_afterExponent (afterFraction more)
      simp_all only [List.length_cons]
      omega

def scanNumber (cs : List Char) : Option (Token × List Char) :=
  (afterNumber? cs).map fun rest =>
    (.literal (.number (String.ofList (cs.take (cs.length - rest.length)))), rest)

/-! ## Tokens -/

def scanWord (word : String) (value : Value) (rest : List Char) : Option (Token × List Char) :=
  (Text.after? word.toList rest).map fun rest => (.literal value, rest)

def scanToken (c : Char) (rest : List Char) : Option (Token × List Char) :=
  match c with
  | '\x7b' => some (.openObject, rest)
  | '\x7d' => some (.closeObject, rest)
  | '[' => some (.openArray, rest)
  | ']' => some (.closeArray, rest)
  | ':' => some (.colon, rest)
  | ',' => some (.comma, rest)
  | '"' => (scanString rest).map fun found => (.string found.1, found.2)
  | 'n' => scanWord "ull" .null rest
  | 't' => scanWord "rue" (.bool true) rest
  | 'f' => scanWord "alse" (.bool false) rest
  | c => scanNumber (c :: rest)

theorem length_scanWord {word : String} {value : Value} {cs rest : List Char} {t : Token}
    (found : scanWord word value cs = some (t, rest)) : rest.length ≤ cs.length := by
  obtain ⟨_, after, same⟩ := Option.map_eq_some_iff.mp found
  cases same
  have := Text.length_after? after
  omega

theorem length_scanNumber {cs rest : List Char} {t : Token}
    (found : scanNumber cs = some (t, rest)) : rest.length < cs.length := by
  obtain ⟨_, after, same⟩ := Option.map_eq_some_iff.mp found
  cases same
  exact length_afterNumber? after

theorem length_scanToken {c : Char} {cs rest : List Char} {t : Token}
    (found : scanToken c cs = some (t, rest)) : rest.length ≤ cs.length := by
  unfold scanToken at found
  split at found
  case h_1 | h_2 | h_3 | h_4 | h_5 | h_6 =>
    cases found
    exact Nat.le_refl _
  case h_7 =>
    obtain ⟨⟨_, _⟩, after, same⟩ := Option.map_eq_some_iff.mp found
    cases same
    exact Nat.le_of_lt (length_scanString after)
  case h_8 | h_9 | h_10 => exact length_scanWord found
  case h_11 =>
    have := length_scanNumber found
    simp only [List.length_cons] at this
    omega

def tokens (cs : List Char) : Option (List Token) :=
  match gap : cs.dropWhile isGap with
  | [] => some []
  | c :: rest =>
      match found : scanToken c rest with
      | none => none
      | some (t, more) =>
          have shorter : more.length < cs.length := by
            have := (List.dropWhile_suffix (l := cs) isGap).length_le
            have := length_scanToken found
            simp only [gap, List.length_cons] at *
            omega
          (tokens more).map (t :: ·)
  termination_by cs.length

end MapAudit.Json
