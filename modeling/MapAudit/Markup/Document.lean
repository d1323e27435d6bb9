import MapAudit.Markup.Node
import MapAudit.Markup.Token

/-!
# Reading a document

`Element.parse` reads a text as a document and gives its top element.  The tokens
of the text are put together by a stack of open elements; on the way the bindings
of namespaces are checked, so that every qualifier in use is bound.
-/

namespace MapAudit.Markup

set_option autoImplicit false

/-! ## Namespaces -/

/-- The namespace that the qualifier `xml` always stands for. -/
def xmlNamespace : String := "http://www.w3.org/XML/1998/namespace"

/-- The namespace of the bindings themselves, which nothing else may be bound to. -/
def xmlnsNamespace : String := "http://www.w3.org/2000/xmlns/"

/-- The qualifiers in force, the innermost binding first. -/
abbrev Scope := List (String × String)

/-- A binding of a namespace among the attributes of a tag, or an attribute
proper. -/
inductive Role where
  /-- A qualifier is bound to a namespace. -/
  | binding (qualifier namespaceName : String)
  /-- The namespace of unqualified elements is set. -/
  | default (namespaceName : String)
  | plain

def Attribute.role (a : Attribute) : Role :=
  if a.name.qualifier = "xmlns" then .binding a.name.base a.value
  else if a.name.base = "xmlns" then .default a.value
  else .plain

/-- Add the bindings among some attributes to `own`, those of the same tag. -/
def addBindings (own : Scope) : List Attribute → Except Fault Scope
  | [] => .ok own
  | a :: rest =>
      match a.role with
      | .plain => addBindings own rest
      | .default uri =>
          if uri = xmlNamespace ∨ uri = xmlnsNamespace then .error .badBinding
          else addBindings own rest
      | .binding qualifier uri =>
          if qualifier = "xml" then
            if uri = xmlNamespace then addBindings own rest else .error .badBinding
          else if uri = xmlNamespace ∨ uri = xmlnsNamespace ∨ (own.lookup qualifier).isSome then
            .error .badBinding
          else addBindings (own ++ [(qualifier, uri)]) rest

/-- The namespace of an attribute name: none without a qualifier. -/
def attributeNamespace (scope : Scope) (qualifier : String) : Except Fault (Option String) :=
  if qualifier = "" then .ok none
  else if qualifier = "xml" then .ok (some xmlNamespace)
  else
    match scope.lookup qualifier with
    | some uri => .ok (some uri)
    | none => .error .unboundQualifier

/-- Check the attributes proper: their qualifiers are bound, and no two have one
namespace and one base. -/
def checkAttributes (scope : Scope) (seen : List (Option String × String)) :
    List Attribute → Except Fault Unit
  | [] => .ok ()
  | a :: rest =>
      match a.role with
      | .plain =>
          match attributeNamespace scope a.name.qualifier with
          | .error fault => .error fault
          | .ok uri =>
              if (uri, a.name.base) ∈ seen then .error .repeatedAttribute
              else checkAttributes scope ((uri, a.name.base) :: seen) rest
      | _ => checkAttributes scope seen rest

/-- The scope inside an element, given the scope around it. -/
def enter (outer : Scope) (name : Name) (attributes : List Attribute) : Except Fault Scope := do
  if name.qualifier = "xmlns" then throw .badBinding
  let own ← addBindings [] attributes
  let scope := own ++ outer
  checkAttributes scope [] attributes
  if name.qualifier ≠ "" ∧ (scope.lookup name.qualifier).isNone then throw .unboundQualifier
  return scope

/-! ## Building the tree -/

/-- An element whose closing tag is still to come. -/
structure Frame where
  name : Name
  scope : Scope
  /-- The children so far, the last one first. -/
  children : List Node

/-- What is read so far: the open elements, the innermost first, and the top
element once it is closed. -/
structure Builder where
  frames : List Frame := []
  top : Option Element := none

namespace Builder

/-- Put text after some children, as one with text that is last. -/
def addText (content : String) : List Node → List Node
  | .text before :: rest => .text (before ++ content) :: rest
  | children => .text content :: children

def addElement (b : Builder) (e : Element) : Except Fault Builder :=
  match b.frames, b.top with
  | f :: frames, _ =>
      .ok { b with frames := { f with children := .element e.tag e.children :: f.children } :: frames }
  | [], none => .ok { b with top := some e }
  | [], some _ => .error .badTop

/-- Add something to the children of the innermost element, if there is one. -/
def amend (b : Builder) (change : List Node → List Node) : Builder :=
  match b.frames with
  | f :: frames => { b with frames := { f with children := change f.children } :: frames }
  | [] => b

/-- Whether character data is white space only, as it is outside the top element. -/
def isSpacing (content : List Piece) : Bool :=
  content.all fun piece =>
    match piece with
    | .literal c => isSpace c
    | .referred _ => false

def scope (b : Builder) : Scope :=
  match b.frames with
  | f :: _ => f.scope
  | [] => []

def step (b : Builder) : Token → Except Fault Builder
  | .opening name attributes closed => do
      let scope ← enter b.scope name attributes
      if closed then b.addElement ⟨name.base, []⟩
      else return { b with frames := ⟨name, scope, []⟩ :: b.frames }
  | .closing name =>
      match b.frames with
      | [] => .error .mismatchedTag
      | f :: frames =>
          if f.name = name then
            { b with frames := frames }.addElement ⟨f.name.base, f.children.reverse⟩
          else .error .mismatchedTag
  | .text content =>
      if b.frames.isEmpty && !isSpacing content then .error .badTop
      else .ok (b.amend (addText (contentText content)))
  | .literal content =>
      if b.frames.isEmpty then .error .badTop
      else .ok (b.amend (addText (contentText content)))
  | .comment => .ok (b.amend (.comment :: ·))
  | .instruction => .ok (b.amend (.instruction :: ·))

def finish (b : Builder) : Except Fault Element :=
  match b.frames, b.top with
  | [], some e => .ok e
  | _, _ => .error .badTop

end Builder

/-! ## Documents -/

/-- White space between the parts of a declaration; it may be left out before the
end of the declaration. -/
def skipGap (cs : List Char) : Except Fault (List Char) :=
  if startsAsSpace cs ∨ cs.isEmpty ∨ (Text.after? "?>".toList cs).isSome then .ok (skipSpace cs)
  else .error .badMarkup

/-- Skip a part of a declaration that may be left out. -/
def skipOptional (name : String) (cs : List Char) : Except Fault (List Char) :=
  if (Text.after? name.toList cs).isSome then do
    let (_, _, rest) ← readAssignment cs
    skipGap rest
  else .ok cs

/-- Skip the declaration that a document may begin with: a version, then perhaps
an encoding and whether it stands alone, none of which is looked at. -/
def skipDeclaration (cs : List Char) : Except Fault (List Char) :=
  match Text.after? "<?xml ".toList cs with
  | none => .ok cs
  | some rest => do
      let rest := skipSpace rest
      if (Text.after? "version".toList rest).isNone then throw .badMarkup
      let (_, _, rest) ← readAssignment rest
      let rest ← skipGap rest
      let rest ← skipOptional "encoding" rest
      let rest ← skipOptional "standalone" rest
      match Text.after? "?>".toList (skipSpace rest) with
      | some rest => return rest
      | none => throw .badMarkup

/-- Skip the byte order mark that a document may begin with. -/
def skipByteOrderMark : List Char → List Char
  | '\uFEFF' :: rest => rest
  | cs => cs

/-- Read a document: its top element. -/
def Element.parse (text : String) : Except Fault Element := do
  let cs := skipByteOrderMark text.toList
  if !cs.all isAllowed then throw .badCharacter
  let rest ← skipDeclaration cs
  let tokens ← scan rest
  let built ← tokens.foldlM Builder.step {}
  built.finish

end MapAudit.Markup
