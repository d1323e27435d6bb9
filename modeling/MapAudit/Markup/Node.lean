import MapAudit.Markup.Fault

/-!
# Element trees

What a document means once it is read: elements with their children, text,
comments and instructions.  Elements are known by the base of their name, and
nothing in a check depends on attributes, so neither qualifiers nor attributes
are kept.
-/

namespace MapAudit.Markup

set_option autoImplicit false

/-- A part of a document. -/
inductive Node where
  | element (tag : String) (children : List Node)
  | text (content : String)
  | comment
  | instruction
  deriving Repr, Inhabited

structure Element where
  tag : String
  children : List Node
  deriving Repr, Inhabited

def Node.element? : Node → Option Element
  | .element tag children => some ⟨tag, children⟩
  | _ => none

namespace Element

/-- The children that are elements, in document order. -/
def elements (e : Element) : List Element :=
  e.children.filterMap Node.element?

def withTag (e : Element) (tag : String) : List Element :=
  e.elements.filter fun child => child.tag = tag

def first? (e : Element) (tag : String) : Option Element :=
  e.elements.find? fun child => child.tag = tag

/-- The text of an element: its first child, if that is text. -/
def text? (e : Element) : Option String :=
  match e.children with
  | .text content :: _ => some content
  | _ => none

end Element

/-- What reads a text as a document and gives its top element. -/
abbrev Reader := String → Except Fault Element

end MapAudit.Markup
