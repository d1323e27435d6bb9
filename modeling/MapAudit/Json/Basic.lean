/-!
# JSON values

A JSON string is a list of *units*: characters, and surrogates, which only an
escape can write.  `decode` joins pairs of surrogates; it fails on a surrogate that
stands alone, because such a string is not text.
-/

namespace MapAudit.Json

set_option autoImplicit false

/-- A unit of a JSON string. -/
inductive StringUnit where
  | char (c : Char)
  /-- A code from U+D800 to U+DFFF. -/
  | surrogate (code : Nat)
  deriving DecidableEq, Repr

/-- A JSON value.  Objects keep the order of their members, and all of them. -/
inductive Value where
  | null
  | bool (b : Bool)
  /-- A number, as it is written. -/
  | number (text : String)
  | string (units : List StringUnit)
  | array (items : List Value)
  | object (members : List (List StringUnit × Value))

/-! ## Text in strings -/

def units (s : String) : List StringUnit :=
  s.toList.map .char

/-- The character that two surrogates stand for, the high one first. -/
def pairChar? (high low : Nat) : Option Char :=
  if high < 0xDC00 ∧ 0xDC00 ≤ low then
    some (Char.ofNat (0x10000 + (high - 0xD800) * 0x400 + (low - 0xDC00)))
  else none

/-- The characters of a string. -/
def decodeUnits : List StringUnit → Option (List Char)
  | [] => some []
  | .char c :: rest => (decodeUnits rest).map (c :: ·)
  | .surrogate high :: .surrogate low :: rest =>
      match pairChar? high low with
      | some c => (decodeUnits rest).map (c :: ·)
      | none => none
  | .surrogate _ :: _ => none

def decode (us : List StringUnit) : Option String :=
  (decodeUnits us).map String.ofList

theorem decodeUnits_map_char (cs : List Char) : decodeUnits (cs.map .char) = some cs := by
  induction cs with
  | nil => rfl
  | cons c rest ih => simp [decodeUnits, ih]

theorem decode_units (s : String) : decode (units s) = some s := by
  simp [decode, units, decodeUnits_map_char]

namespace Value

def text (s : String) : Value := .string (units s)

def texts (list : List String) : Value := .array (list.map text)

def text? : Option String → Value
  | some s => text s
  | none => .null

/-- An object whose members are sorted by key. -/
def record (members : List (String × Value)) : Value :=
  .object ((members.mergeSort fun a b => decide (a.1 ≤ b.1)).map fun m => (units m.1, m.2))

end Value

end MapAudit.Json
