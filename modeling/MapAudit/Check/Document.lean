import MapAudit.Check.Basic
import MapAudit.Markup.Node
import MapAudit.Predicate.Basic

/-!
# Check documents

A check is written as a document: an element that holds a `class` with the four
texts of the issue class, and `requests` with one `request` for each request.
The name of the top element is free, and children that are not looked for are
ignored, other than among the requests and predicates.
-/

namespace MapAudit

set_option autoImplicit false

open Markup (Element Node)

/-! ## Fields of an element -/

/-- The trimmed text of an element, which is not empty. -/
def textOf (e : Element) (tag : String) : Except CheckError String :=
  match e.text? with
  | some content =>
      if Text.trim content = "" then .error (.malformedDocument (.emptyElement tag))
      else .ok (Text.trim content)
  | none => .error (.malformedDocument (.emptyElement tag))

def childOf (e : Element) (tag : String) : Except CheckError Element :=
  match e.first? tag with
  | some child => .ok child
  | none => .error (.malformedDocument (.missingChild e.tag tag))

/-- The trimmed text of the first child with a tag. -/
def fieldOf (e : Element) (tag : String) : Except CheckError String := do
  let child ← childOf e tag
  textOf child tag

/-- The only child with a tag, if there is one. -/
def blockOf (e : Element) (request tag : String) : Except CheckError (Option Element) :=
  match e.withTag tag with
  | [] => .ok none
  | [block] => .ok (some block)
  | _ => .error (.malformedRequest request (.repeatedBlock tag))

/-! ## Predicates -/

namespace Predicate

mutual

/-- The predicate that an element stands for; other nodes stand for none. -/
def ofNode : Node → Except CheckError (Option Predicate)
  | .element tag children =>
      if tag = "and" then do
        let parts ← ofNodes children
        some <$> make .and parts
      else if tag = "or" then do
        let parts ← ofNodes children
        some <$> make .or parts
      else if tag = "has_tag" then do
        let key ← textOf ⟨tag, children⟩ tag
        some <$> makeHasTag key
      else if tag = "has_not_tag" then do
        let key ← textOf ⟨tag, children⟩ tag
        some <$> makeLacksTag key
      else if tag = "key_value" then do
        let text ← textOf ⟨tag, children⟩ tag
        some <$> readKeyValue text
      else if tag = "intersects" then do
        let target ← textOf ⟨tag, children⟩ tag
        some <$> makeIntersects target
      else .error (.unknownPredicate tag)
  | _ => .ok none

def ofNodes : List Node → Except CheckError (List Predicate)
  | [] => .ok []
  | node :: rest => do
      match ← ofNode node with
      | some p => (p :: ·) <$> ofNodes rest
      | none => ofNodes rest

end

/-- The predicate of a filter: its only element. -/
def ofFilter (filter : Element) : Except CheckError Predicate :=
  match filter.elements with
  | _ :: _ :: _ => .error (.malformedDocument .crowdedFilter)
  | _ => do
      match ← ofNodes filter.children with
      | p :: _ => return p
      | [] => throw (.malformedDocument .emptyFilter)

end Predicate

/-! ## Requests -/

namespace Request

/-- Read the parts of a request other than its name. -/
def readBody (e : Element) (name : String) : Except CheckError Request := do
  let feature ← FeatureKind.read (← fieldOf e "obj")
  let geometry ← GeometryKind.read (← fieldOf e "geom")
  let source ← fieldOf e "from"
  let predicate ←
    match ← blockOf e name "filter" with
    | some filter => some <$> Predicate.ofFilter filter
    | none => pure none
  let distance ←
    match ← blockOf e name "buffer" with
    | some buffer => some <$> textOf buffer "buffer"
    | none => pure none
  make name feature geometry source predicate distance

/-- Read a request.  Once its name is known, every refusal concerns it. -/
def read (e : Element) : Except CheckError Request := do
  let name ← fieldOf e "name"
  CheckError.locate name (readBody e name)

def readAll : List Element → Except CheckError (List Request)
  | [] => .ok []
  | e :: rest => do
      if e.tag ≠ "request" then throw (.malformedDocument (.strayElement e.tag))
      let r ← read e
      let others ← readAll rest
      return r :: others

end Request

/-! ## Checks -/

def IssueClass.read (e : Element) : Except CheckError IssueClass := do
  let id ← fieldOf e "id"
  let item ← fieldOf e "item"
  let level ← fieldOf e "level"
  let title ← fieldOf e "title"
  return { id, item, level, title }

namespace Check

def ofElement (top : Element) : Except CheckError Check := do
  let issueClass ← IssueClass.read (← childOf top "class")
  let requests ← childOf top "requests"
  make issueClass (← Request.readAll requests.elements)

/-- Read a check document, which `reader` reads as markup. -/
def read (reader : Markup.Reader) (text : String) : Except CheckError Check :=
  match reader text with
  | .error fault => .error (.malformedDocument (.notMarkup fault))
  | .ok top => ofElement top

end Check

end MapAudit
