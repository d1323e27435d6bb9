import MapAudit.Text.Decimal

/-!
# Words of a statement

The three kinds of user text that are written into a statement, and how each is
kept from being read as anything else: names that are plain identifiers, decimal
distances, and quoted literals.  `scanLiteral` reads a quoted literal back by the
rule of the store: a doubled quote stands for one quote and a lone one ends it.
-/

namespace MapAudit.Sql

set_option autoImplicit false

/-! ## Identifiers -/

/-- The longest name, in UTF-8 bytes, that the store keeps whole. -/
def maxIdentifierBytes : Nat := 63

/-- An ASCII letter or an underscore. -/
def isIdentifierStart (c : Char) : Bool :=
  decide ('A' ≤ c) && decide (c ≤ 'Z') || decide ('a' ≤ c) && decide (c ≤ 'z') || c == '_'

/-- An ASCII letter, an ASCII digit or an underscore. -/
def isIdentifierPart (c : Char) : Bool :=
  isIdentifierStart c || Text.isDigit c

/-- A letter or underscore, then letters, digits and underscores. -/
def isIdentifierWord : List Char → Bool
  | [] => false
  | c :: cs => isIdentifierStart c && cs.all isIdentifierPart

def isIdentifier (s : String) : Bool :=
  decide (s.utf8ByteSize ≤ maxIdentifierBytes) && isIdentifierWord s.toList

/-! ## Distances -/

/-- An optional exponent, and then the end of the text. -/
def isExponent : List Char → Bool
  | [] => true
  | c :: cs => (c == 'e' || c == 'E') && Text.afterDigits? (Text.afterSign cs) == some []

/-- An optional fraction, an optional exponent, and then the end of the text. -/
def isFraction : List Char → Bool
  | '.' :: cs =>
      match Text.afterDigits? cs with
      | some rest => isExponent rest
      | none => false
  | cs => isExponent cs

/-- Digits, an optional fraction and an optional exponent. -/
def isMagnitude (cs : List Char) : Bool :=
  match Text.afterDigits? cs with
  | some rest => isFraction rest
  | none => false

/-- Whether a text is a decimal number as a statement may hold it unquoted: an
optional minus, digits, and an optional fraction and exponent. -/
def isDistance (s : String) : Bool :=
  match s.toList with
  | '-' :: cs => isMagnitude cs
  | cs => isMagnitude cs

/-! ## Quoted literals -/

/-- Every quote written twice. -/
def doubleQuotes : List Char → List Char
  | [] => []
  | c :: cs => if c = '\x27' then '\x27' :: '\x27' :: doubleQuotes cs else c :: doubleQuotes cs

/-- The quoted literal that denotes a text. -/
def quote (s : String) : String :=
  "'" ++ String.ofList (doubleQuotes s.toList) ++ "'"

/-- Read the rest of a literal whose opening quote is already read: its value and
what follows the closing quote. -/
def scanLiteral : List Char → Option (List Char × List Char)
  | [] => none
  | '\x27' :: '\x27' :: cs => (scanLiteral cs).map fun found => ('\x27' :: found.1, found.2)
  | c :: cs => if c = '\x27' then some ([], cs) else (scanLiteral cs).map fun found => (c :: found.1, found.2)

end MapAudit.Sql
