/-!
# Why a text is no markup document
-/

namespace MapAudit.Markup

set_option autoImplicit false

/-- Why a text is not a well-formed document. -/
inductive Fault where
  /-- A character that no document may hold. -/
  | badCharacter
  /-- An element, attribute or instruction name is missing or ill-formed. -/
  | badName
  /-- A declaration, tag, comment, instruction or literal section is ill-formed. -/
  | badMarkup
  /-- A reference names no character. -/
  | badReference
  /-- The end of a literal section stands in character data. -/
  | strayClosing
  /-- A namespace is bound in a way that is reserved, or twice. -/
  | badBinding
  /-- A name is qualified by a namespace that is not bound. -/
  | unboundQualifier
  /-- An element has two attributes of one name. -/
  | repeatedAttribute
  /-- A closing tag does not match the open element. -/
  | mismatchedTag
  /-- Something other than one element stands at the top. -/
  | badTop
  deriving DecidableEq, Repr

def Fault.message : Fault → String
  | .badCharacter => "a character is not allowed in a document"
  | .badName => "a name is missing or ill-formed"
  | .badMarkup => "markup is ill-formed"
  | .badReference => "a reference names no character"
  | .strayClosing => "character data holds the end of a literal section"
  | .badBinding => "a namespace binding is not allowed"
  | .unboundQualifier => "a name has an unbound qualifier"
  | .repeatedAttribute => "an attribute is repeated"
  | .mismatchedTag => "tags do not match"
  | .badTop => "a document is exactly one element"

end MapAudit.Markup
