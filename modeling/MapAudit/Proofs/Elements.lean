import MapAudit.Check.Document
import MapAudit.Proofs.Outcome
import Mathlib.Logic.Basic

/-!
# Readers of elements

The readers of a check document, each as a chain of the parts it looks up: which child
is the first with a tag, and what a predicate, a request and a check are made from.
-/

namespace MapAudit

set_option autoImplicit false

open Markup (Element Node)

namespace Markup.Element

theorem first?_eq_head? (e : Element) (tag : String) : e.first? tag = (e.withTag tag).head? := by
  rw [first?, withTag, List.head?_filter]

/-- Where the children with a tag are the same, so is the first of them. -/
theorem first?_of_withTag {e e' : Element} {tag : String} (same : e'.withTag tag = e.withTag tag) :
    e'.first? tag = e.first? tag := by
  rw [first?_eq_head?, first?_eq_head?, same]

theorem tag_of_mem_withTag {e child : Element} {tag : String} (member : child ∈ e.withTag tag) :
    child.tag = tag := by
  simpa using (List.mem_filter.1 member).2

theorem tag_of_first? {e child : Element} {tag : String} (found : e.first? tag = some child) :
    child.tag = tag := by
  simpa using List.find?_some found

end Markup.Element

/-! ## Predicates -/

namespace Predicate

def ofElement (e : Element) : Except CheckError Predicate :=
  if e.tag = "and" then ofNodes e.children >>= make .and
  else if e.tag = "or" then ofNodes e.children >>= make .or
  else if e.tag = "has_tag" then textOf e e.tag >>= makeHasTag
  else if e.tag = "has_not_tag" then textOf e e.tag >>= makeLacksTag
  else if e.tag = "key_value" then textOf e e.tag >>= readKeyValue
  else if e.tag = "intersects" then textOf e e.tag >>= makeIntersects
  else .error (.unknownPredicate e.tag)

theorem ofNode_element (tag : String) (children : List Node) :
    ofNode (.element tag children) = some <$> ofElement ⟨tag, children⟩ := by
  rw [ofNode, ofElement]
  simp only [apply_ite (some <$> ·), map_bind]
  rfl

/-- The nodes that are no elements stand for nothing. -/
theorem ofNodes_eq_mapM (nodes : List Node) :
    ofNodes nodes = (nodes.filterMap Node.element?).mapM ofElement := by
  induction nodes with
  | nil => rfl
  | cons node rest ih =>
      cases node with
      | element tag children =>
          have listed : (Node.element tag children :: rest).filterMap Node.element? =
              ⟨tag, children⟩ :: rest.filterMap Node.element? := rfl
          rw [ofNodes, ofNode_element, listed, List.mapM_cons, ← ih]
          cases ofElement ⟨tag, children⟩ <;> rfl
      | text content => exact ih
      | comment => exact ih
      | instruction => exact ih

/-- A filter holds one element, which is its predicate. -/
theorem ofFilter_eq (filter : Element) :
    ofFilter filter =
      match filter.elements with
      | [] => .error (.malformedDocument .emptyFilter)
      | [e] => ofElement e
      | _ :: _ :: _ => .error (.malformedDocument .crowdedFilter) := by
  have parts : ofNodes filter.children = filter.elements.mapM ofElement :=
    ofNodes_eq_mapM filter.children
  rw [ofFilter, parts]
  cases filter.elements with
  | nil => rfl
  | cons e others =>
      cases others with
      | nil =>
          rw [List.mapM_cons, List.mapM_nil]
          show _ = ofElement e
          cases ofElement e <;> rfl
      | cons _ _ => rfl

end Predicate

/-! ## Requests and checks -/

namespace Request

def predicateOf (e : Element) (name : String) : Except CheckError (Option Predicate) := do
  match ← blockOf e name "filter" with
  | some filter => some <$> Predicate.ofFilter filter
  | none => return none

def distanceOf (e : Element) (name : String) : Except CheckError (Option String) := do
  match ← blockOf e name "buffer" with
  | some buffer => some <$> textOf buffer "buffer"
  | none => return none

theorem readBody_eq (e : Element) (name : String) :
    readBody e name = (do
      let feature ← fieldOf e "obj" >>= FeatureKind.read
      let geometry ← fieldOf e "geom" >>= GeometryKind.read
      let source ← fieldOf e "from"
      let predicate ← predicateOf e name
      let distance ← distanceOf e name
      make name feature geometry source predicate distance) := by
  have buffered : ∀ finish : Option String → Except CheckError Request,
      (blockOf e name "buffer" >>= fun
        | some buffer => (some <$> textOf buffer "buffer") >>= finish
        | none => pure none >>= finish) = distanceOf e name >>= finish := by
    intro finish
    rw [distanceOf, bind_assoc]
    congr 1
    funext block
    cases block <;> rfl
  have filtered : ∀ finish : Option Predicate → Except CheckError Request,
      (blockOf e name "filter" >>= fun
        | some filter => (some <$> Predicate.ofFilter filter) >>= finish
        | none => pure none >>= finish) = predicateOf e name >>= finish := by
    intro finish
    rw [predicateOf, bind_assoc]
    congr 1
    funext block
    cases block <;> rfl
  simp only [← buffered, ← filtered, bind_assoc]
  rfl

end Request

theorem Check.ofElement_eq (top : Element) :
    Check.ofElement top = (do
      let issueClass ← childOf top "class" >>= IssueClass.read
      let requests ← childOf top "requests" >>= fun e => Request.readAll e.elements
      make issueClass requests) := by
  simp only [bind_assoc]
  rfl

end MapAudit
