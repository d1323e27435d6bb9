import MapAudit.CheckError
import MapAudit.Sql.Literal
import MapAudit.Text.Blank
import MapAudit.Text.Cut

/-!
# Predicates over features

A filter is a tree of tag tests and intersection tests under connectives.  The
constructors of `Predicate` build any tree; the `make` functions build only trees
whose texts have the form a statement needs.  `targets` lists what a tree
intersects with.
-/

namespace MapAudit

set_option autoImplicit false

/-- A test of one feature. -/
inductive Predicate where
  /-- Every part holds. -/
  | all (parts : List Predicate)
  /-- Some part holds. -/
  | any (parts : List Predicate)
  | hasTag (key : String)
  | lacksTag (key : String)
  | tagEquals (key value : String)
  | tagDiffers (key value : String)
  /-- The feature meets some feature of another relation. -/
  | intersects (target : String)
  deriving Repr, Inhabited

/-- The longest tag key or value, in UTF-8 bytes. -/
def maxTagBytes : Nat := 255

/-! ## Forms of texts -/

def checkIdentifier (text : String) : Except CheckError Unit :=
  if Sql.isIdentifier text then .ok () else .error (.invalidLiteral .identifier text)

def checkDistance (text : String) : Except CheckError Unit :=
  if Sql.isDistance text then .ok () else .error (.invalidLiteral .distance text)

/-- Accept a tag key: not empty, and not too long. -/
def checkTagKey (text : String) : Except CheckError Unit :=
  if text ≠ "" ∧ text.utf8ByteSize ≤ maxTagBytes then .ok ()
  else .error (.invalidLiteral .tagKey text)

/-- Accept a tag value: not too long. -/
def checkTagValue (text : String) : Except CheckError Unit :=
  if text.utf8ByteSize ≤ maxTagBytes then .ok () else .error (.invalidLiteral .tagValue text)

namespace Predicate

/-! ## Checked construction -/

/-- Join parts under a connective; there must be one. -/
def make (connective : Connective) (parts : List Predicate) : Except CheckError Predicate :=
  if parts.isEmpty then .error (.malformedDocument (.emptyConnective connective))
  else
    match connective with
    | .and => .ok (.all parts)
    | .or => .ok (.any parts)

def makeHasTag (key : String) : Except CheckError Predicate := do
  checkTagKey key
  return .hasTag key

def makeLacksTag (key : String) : Except CheckError Predicate := do
  checkTagKey key
  return .lacksTag key

def makeIntersects (target : String) : Except CheckError Predicate := do
  checkIdentifier target
  return .intersects target

/-! ## Tag comparisons written as text -/

/-- The trimmed, checked key and value of a text that is already divided. -/
def keyAndValue (text : String) (key value : List Char) : Except CheckError (String × String) := do
  let key := String.ofList (Text.trimChars key)
  let value := String.ofList (Text.trimChars value)
  if key = "" then throw (.unparseableKeyValue text)
  checkTagKey key
  checkTagValue value
  return (key, value)

/-- Read `key!=value` or `key=value`.  The first `!=` divides the text; only a text without
one is divided at its first `=`. -/
def readKeyValue (text : String) : Except CheckError Predicate :=
  match Text.cut? ['!', '='] text.toList with
  | some (key, value) => do
      let (key, value) ← keyAndValue text key value
      return .tagDiffers key value
  | none =>
      match Text.cut? ['='] text.toList with
      | some (key, value) => do
          let (key, value) ← keyAndValue text key value
          return .tagEquals key value
      | none => .error (.unparseableKeyValue text)

/-! ## Structure -/

def isConnective : Predicate → Bool
  | .all _ => true
  | .any _ => true
  | _ => false

mutual

/-- The intersection targets of a tree, left to right, with repetitions. -/
def mentions : Predicate → List String
  | .all parts => mentionsAll parts
  | .any parts => mentionsAll parts
  | .intersects target => [target]
  | .hasTag _ => []
  | .lacksTag _ => []
  | .tagEquals _ _ => []
  | .tagDiffers _ _ => []

def mentionsAll : List Predicate → List String
  | [] => []
  | part :: parts => mentions part ++ mentionsAll parts

end

/-- Add a name at the end unless it is there. -/
def addNew (names : List String) (name : String) : List String :=
  if name ∈ names then names else names ++ [name]

/-- The intersection targets of a tree, each once, in the order of first
occurrence. -/
def targets (p : Predicate) : List String :=
  p.mentions.foldl addNew []

end Predicate

end MapAudit
