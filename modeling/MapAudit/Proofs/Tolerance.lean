import MapAudit.Markup.Document
import MapAudit.Proofs.Elements
import Mathlib.Data.List.Forall2
import Mathlib.Logic.Relation

/-!
# Edits that a reader does not see

The children of a check, a class and a request are looked up by their tags, those of a
filter, a connective and the list of requests are read in order.  `Edited` lists the edits
of a tree that no reader notices: notes among the children, children nobody looks for,
further copies of a field, and another order of children with different tags.  They may be
made anywhere in the tree, any number of times, and undone.

`sameReading_of_seesAlike` says once, for every part of a document, what its reader takes
from the children; an edit then only has to leave that view alone.
-/

namespace MapAudit

set_option autoImplicit false

open Markup (Element Node)

/-! ## Parts of a document -/

/-- The part that an element plays in a check document. -/
inductive Part where
  | top
  | issueClass
  | requests
  | request
  | filter
  /-- An `and` or an `or`. -/
  | connective
  /-- An element that is read for its text, or not at all. -/
  | other
  deriving DecidableEq, Repr

namespace Part

/-- The part of an element below the top. -/
def ofTag (tag : String) : Part :=
  if tag = "class" then .issueClass
  else if tag = "requests" then .requests
  else if tag = "request" then .request
  else if tag = "filter" then .filter
  else if tag = "and" ∨ tag = "or" then .connective
  else .other

/-- The children of which the first is read. -/
def fields : Part → List String
  | .top => ["class", "requests"]
  | .issueClass => ["id", "item", "level", "title"]
  | .request => ["name", "obj", "geom", "from"]
  | _ => []

/-- The children that may occur once or not at all. -/
def blocks : Part → List String
  | .request => ["filter", "buffer"]
  | _ => []

/-- Whether the children are looked up by their tags. -/
def keyed : Part → Bool
  | .top | .issueClass | .request => true
  | .requests | .filter | .connective | .other => false

end Part

/-- `Edited part e e'`: the element `e`, which plays a part, becomes `e'` by one edit that
does not concern its reader. -/
inductive Edited : Part → Element → Element → Prop
  /-- A comment, an instruction or a text is inserted among children. -/
  | note {part : Part} {tag : String} (before : List Node) {after : List Node} {node : Node}
      (withChildren : part ≠ .other) (aside : node.element? = none) :
      Edited part ⟨tag, before ++ after⟩ ⟨tag, before ++ node :: after⟩
  /-- A child is added that is not looked for. -/
  | stranger {part : Part} {tag name : String} (before : List Node) {after children : List Node}
      (keyed : part.keyed) (unsought : name ∉ part.fields ++ part.blocks) :
      Edited part ⟨tag, before ++ after⟩ ⟨tag, before ++ .element name children :: after⟩
  /-- A field is given again, later. -/
  | again {part : Part} {tag name : String} (before : List Node) {after children : List Node}
      (field : name ∈ part.fields) (earlier : ∃ first, .element name first ∈ before) :
      Edited part ⟨tag, before ++ after⟩ ⟨tag, before ++ .element name children :: after⟩
  /-- The children change places, other than those with the same tag. -/
  | reordered {part : Part} {tag : String} {children children' : List Node}
      (keyed : part.keyed) (moved : children'.Perm children)
      (kept : ∀ name, Element.withTag ⟨tag, children'⟩ name = Element.withTag ⟨tag, children⟩ name) :
      Edited part ⟨tag, children⟩ ⟨tag, children'⟩
  /-- One of the children is edited. -/
  | inside {part : Part} {tag name : String} (before : List Node)
      {after children children' : List Node}
      (inner : Edited (Part.ofTag name) ⟨name, children⟩ ⟨name, children'⟩) :
      Edited part ⟨tag, before ++ .element name children :: after⟩
        ⟨tag, before ++ .element name children' :: after⟩

/-! ## What a reader takes from an element -/

/-- The reader of a part takes the same from two elements. -/
def Part.SameReading : Part → Element → Element → Prop
  | .top, e, e' => Check.ofElement e' = Check.ofElement e
  | .issueClass, e, e' => IssueClass.read e' = IssueClass.read e
  | .requests, e, e' => Request.readAll e'.elements = Request.readAll e.elements
  | .request, e, e' => Request.read e' = Request.read e
  | .filter, e, e' => Predicate.ofFilter e' = Predicate.ofFilter e
  | .connective, e, e' => Predicate.ofNodes e'.children = Predicate.ofNodes e.children
  | .other, e, e' => e'.text? = e.text?

theorem Part.SameReading.refl (part : Part) (e : Element) : part.SameReading e e := by
  cases part <;> rfl

/-- Two children that are read alike, whoever reads them. -/
structure Alike (e e' : Element) : Prop where
  tag : e'.tag = e.tag
  reading : (Part.ofTag e.tag).SameReading e e'

theorem Alike.refl (e : Element) : Alike e e :=
  ⟨rfl, .refl _ e⟩

theorem forall₂_alike_refl (es : List Element) : List.Forall₂ Alike es es :=
  List.forall₂_same.2 fun e _ => .refl e

/-- The children that the reader of a part looks at are alike. -/
structure Part.SeesAlike (part : Part) (e e' : Element) : Prop where
  tag : e'.tag = e.tag
  fields : ∀ name ∈ part.fields, Option.Rel Alike (e.first? name) (e'.first? name)
  blocks : ∀ name ∈ part.blocks, List.Forall₂ Alike (e.withTag name) (e'.withTag name)
  listed : part.keyed = false → List.Forall₂ Alike e.elements e'.elements
  text : part = .other → e'.text? = e.text?

section Readers

variable {e e' : Element}

/-- What follows the look-up of a field sees no difference. -/
theorem childOf_bind_congr {β : Type} {name : String} {next : Element → Except CheckError β}
    (tag : e'.tag = e.tag) (field : Option.Rel Alike (e.first? name) (e'.first? name))
    (continues : ∀ child child', (Part.ofTag name).SameReading child child' →
      next child' = next child) :
    childOf e' name >>= next = childOf e name >>= next := by
  unfold childOf
  cases found : e.first? name with
  | none =>
      cases found' : e'.first? name with
      | none => rw [tag]
      | some child' => rw [found, found'] at field; cases field
  | some child =>
      cases found' : e'.first? name with
      | none => rw [found, found'] at field; cases field
      | some child' =>
          rw [found, found'] at field
          obtain ⟨alike⟩ := field
          have reading := alike.reading
          rw [Element.tag_of_first? found] at reading
          exact continues child child' reading

/-- What follows the look-up of a block sees no difference. -/
theorem blockOf_bind_congr {β : Type} {request name : String}
    {next : Option Element → Except CheckError β}
    (block : List.Forall₂ Alike (e.withTag name) (e'.withTag name))
    (continues : ∀ child child', (Part.ofTag name).SameReading child child' →
      next (some child') = next (some child)) :
    blockOf e' request name >>= next = blockOf e request name >>= next := by
  have tagged : ∀ child ∈ e.withTag name, child.tag = name := fun _ => Element.tag_of_mem_withTag
  unfold blockOf
  generalize e.withTag name = found, e'.withTag name = found' at block tagged ⊢
  cases block with
  | nil => rfl
  | @cons child child' rest rest' alike others =>
      cases others with
      | nil =>
          have reading := alike.reading
          rw [tagged child (by simp)] at reading
          exact continues child child' reading
      | cons _ _ => rfl

theorem textOf_congr {name : String} (text : e'.text? = e.text?) :
    textOf e' name = textOf e name := by
  rw [textOf, textOf, text]

theorem fieldOf_congr {name : String} (leaf : Part.ofTag name = .other) (tag : e'.tag = e.tag)
    (field : Option.Rel Alike (e.first? name) (e'.first? name)) :
    fieldOf e' name = fieldOf e name := by
  refine childOf_bind_congr tag field fun child child' reading => ?_
  rw [leaf] at reading
  exact textOf_congr reading

theorem read_issueClass_congr (alike : Part.issueClass.SeesAlike e e') :
    IssueClass.read e' = IssueClass.read e := by
  have field : ∀ name ∈ Part.issueClass.fields, Part.ofTag name = .other →
      fieldOf e' name = fieldOf e name :=
    fun name member leaf => fieldOf_congr leaf alike.tag (alike.fields name member)
  rw [IssueClass.read, IssueClass.read, field "id" (by decide) rfl, field "item" (by decide) rfl,
    field "level" (by decide) rfl, field "title" (by decide) rfl]

/-- A request is read alike from elements whose fields and blocks are alike. -/
theorem read_request_congr (alike : Part.request.SeesAlike e e') :
    Request.read e' = Request.read e := by
  have field : ∀ name ∈ Part.request.fields, Part.ofTag name = .other →
      fieldOf e' name = fieldOf e name :=
    fun name member leaf => fieldOf_congr leaf alike.tag (alike.fields name member)
  have filter : ∀ name, Request.predicateOf e' name = Request.predicateOf e name := by
    intro name
    refine blockOf_bind_congr (alike.blocks "filter" (by decide)) fun child child' reading => ?_
    exact congrArg (some <$> ·) reading
  have buffer : ∀ name, Request.distanceOf e' name = Request.distanceOf e name := by
    intro name
    refine blockOf_bind_congr (alike.blocks "buffer" (by decide)) fun child child' reading => ?_
    exact congrArg (some <$> ·) (textOf_congr reading)
  simp only [Request.read, Request.readBody_eq, filter, buffer, field "name" (by decide) rfl,
    field "obj" (by decide) rfl, field "geom" (by decide) rfl, field "from" (by decide) rfl]

/-- A check is read alike from top elements whose classes and requests are alike. -/
theorem ofElement_check_congr (alike : Part.top.SeesAlike e e') :
    Check.ofElement e' = Check.ofElement e := by
  have issueClass : childOf e' "class" >>= IssueClass.read = childOf e "class" >>= IssueClass.read :=
    childOf_bind_congr alike.tag (alike.fields "class" (by decide)) fun _ _ reading => reading
  have requests : (childOf e' "requests" >>= fun list => Request.readAll list.elements) =
      childOf e "requests" >>= fun list => Request.readAll list.elements :=
    childOf_bind_congr alike.tag (alike.fields "requests" (by decide)) fun _ _ reading => reading
  rw [Check.ofElement_eq, Check.ofElement_eq, issueClass, requests]

theorem readAll_congr {es es' : List Element} (alike : List.Forall₂ Alike es es') :
    Request.readAll es' = Request.readAll es := by
  induction alike with
  | nil => rfl
  | @cons child child' rest rest' first _ ih =>
      rw [Request.readAll, Request.readAll, first.tag, ih]
      by_cases isRequest : child.tag = "request"
      · have reading := first.reading
        rw [isRequest] at reading
        have same : Request.read child' = Request.read child := reading
        rw [same]
      · simp [isRequest]
        rfl

/-- A predicate is read from its tag and either its parts or its text. -/
theorem ofElement_predicate_congr (alike : Alike e e') :
    Predicate.ofElement e' = Predicate.ofElement e := by
  have reading := alike.reading
  have text : Part.ofTag e.tag = .other → textOf e' e.tag = textOf e e.tag := by
    intro leaf
    rw [leaf] at reading
    exact textOf_congr reading
  have parts : Part.ofTag e.tag = .connective →
      Predicate.ofNodes e'.children = Predicate.ofNodes e.children := by
    intro connective
    rw [connective] at reading
    exact reading
  rw [Predicate.ofElement, Predicate.ofElement, alike.tag]
  split_ifs with conjunction disjunction hasTag lacksTag keyValue intersects
  · rw [parts (by rw [conjunction]; rfl)]
  · rw [parts (by rw [disjunction]; rfl)]
  · rw [text (by rw [hasTag]; rfl)]
  · rw [text (by rw [lacksTag]; rfl)]
  · rw [text (by rw [keyValue]; rfl)]
  · rw [text (by rw [intersects]; rfl)]
  · rfl

theorem mapM_ofElement_congr {es es' : List Element} (alike : List.Forall₂ Alike es es') :
    es'.mapM Predicate.ofElement = es.mapM Predicate.ofElement := by
  induction alike with
  | nil => rfl
  | cons first _ ih => rw [List.mapM_cons, List.mapM_cons, ofElement_predicate_congr first, ih]

theorem ofFilter_congr (alike : List.Forall₂ Alike e.elements e'.elements) :
    Predicate.ofFilter e' = Predicate.ofFilter e := by
  rw [Predicate.ofFilter_eq, Predicate.ofFilter_eq]
  generalize e.elements = held, e'.elements = held' at alike ⊢
  cases alike with
  | nil => rfl
  | cons first others =>
      cases others with
      | nil => exact ofElement_predicate_congr first
      | cons _ _ => rfl

/-- **A reader takes from an element only what it looks at.** -/
theorem sameReading_of_seesAlike {part : Part} (alike : part.SeesAlike e e') :
    part.SameReading e e' := by
  cases part with
  | top => exact ofElement_check_congr alike
  | issueClass => exact read_issueClass_congr alike
  | requests => exact readAll_congr (alike.listed rfl)
  | request => exact read_request_congr alike
  | filter => exact ofFilter_congr (alike.listed rfl)
  | connective =>
      show Predicate.ofNodes e'.children = Predicate.ofNodes e.children
      rw [Predicate.ofNodes_eq_mapM, Predicate.ofNodes_eq_mapM]
      exact mapM_ofElement_congr (alike.listed rfl)
  | other => exact alike.text rfl

end Readers

/-! ## What an edit leaves alone -/

section Edits

variable {part : Part} {tag name : String} {before after children : List Node}

theorem elements_insert (node : Node) :
    Element.elements ⟨tag, before ++ node :: after⟩ =
      Element.elements ⟨tag, before⟩ ++ node.element?.toList ++ Element.elements ⟨tag, after⟩ := by
  cases node <;> simp [Element.elements, Node.element?, List.filterMap_cons]

theorem elements_append :
    Element.elements ⟨tag, before ++ after⟩ =
      Element.elements ⟨tag, before⟩ ++ Element.elements ⟨tag, after⟩ :=
  List.filterMap_append

/-- An inserted element is no child with another tag. -/
theorem withTag_insert_of_ne {sought : String} (other : name ≠ sought) :
    Element.withTag ⟨tag, before ++ .element name children :: after⟩ sought =
      Element.withTag ⟨tag, before ++ after⟩ sought := by
  rw [Element.withTag, Element.withTag, elements_insert, elements_append]
  simp [Node.element?, other]

/-- A copy after the first child with its tag leaves the first one first. -/
theorem first?_insert_of_mem {first : List Node} (earlier : .element name first ∈ before) :
    Element.first? ⟨tag, before ++ .element name children :: after⟩ name =
      Element.first? ⟨tag, before ++ after⟩ name := by
  have found : ((Element.elements ⟨tag, before⟩).find? fun child => child.tag = name).isSome := by
    rw [List.find?_isSome]
    exact ⟨⟨name, first⟩, List.mem_filterMap.2 ⟨_, earlier, rfl⟩, by simp⟩
  obtain ⟨child, found⟩ := Option.isSome_iff_exists.1 found
  rw [Element.first?, Element.first?, elements_append, elements_append, List.find?_append,
    List.find?_append, found]
  rfl

/-- Elements whose children are alike in order are alike to every reader of children. -/
theorem seesAlike_of_forall₂ {e e' : Element} (sameTag : e'.tag = e.tag)
    (alike : List.Forall₂ Alike e.elements e'.elements)
    (text : part = .other → e'.text? = e.text?) : part.SeesAlike e e' := by
  have tagged : ∀ name, List.Forall₂ Alike (e.withTag name) (e'.withTag name) := by
    intro name
    refine List.rel_filter (fun child child' same => ?_) alike
    simp [same.tag]
  refine ⟨sameTag, fun name _ => ?_, fun name _ => tagged name, fun _ => alike, text⟩
  have alike := tagged name
  rw [Element.first?_eq_head?, Element.first?_eq_head?]
  generalize e.withTag name = found, e'.withTag name = found' at alike
  cases alike with
  | nil => exact .none
  | cons first _ => exact .some first

/-- Where the children are looked up, it is enough to find the same ones. -/
theorem seesAlike_of_keyed {e e' : Element} (keyed : part.keyed) (sameTag : e'.tag = e.tag)
    (fields : ∀ name ∈ part.fields, e'.first? name = e.first? name)
    (blocks : ∀ name ∈ part.blocks, e'.withTag name = e.withTag name) : part.SeesAlike e e' where
  tag := sameTag
  fields name member := by
    rw [fields name member]
    cases e.first? name with
    | none => exact .none
    | some child => exact .some (.refl child)
  blocks name member := by
    rw [blocks name member]
    exact forall₂_alike_refl _
  listed closed := by simp [keyed] at closed
  text other := by subst other; simp [Part.keyed] at keyed

/-- Fields are no blocks, and only parts that look up their children have them. -/
theorem keyed_of_mem_fields (field : name ∈ part.fields) : part.keyed ∧ name ∉ part.blocks := by
  cases part with
  | request => revert name; decide
  | top => exact ⟨rfl, by simp [Part.blocks]⟩
  | issueClass => exact ⟨rfl, by simp [Part.blocks]⟩
  | requests | filter | connective | other => simp [Part.fields] at field

end Edits

/-- **No edit is seen by the reader of the part it is made in.** -/
theorem Edited.sameReading {part : Part} {e e' : Element} (edited : Edited part e e') :
    part.SameReading e e' := by
  induction edited with
  | @note part tag before after node withChildren aside =>
      apply sameReading_of_seesAlike
      refine seesAlike_of_forall₂ rfl ?_ fun other => absurd other withChildren
      rw [elements_insert, elements_append, aside, Option.toList_none, List.append_nil]
      exact forall₂_alike_refl _
  | @stranger part tag name before after children keyed unsought =>
      simp only [List.mem_append, not_or] at unsought
      have others : ∀ sought, name ≠ sought →
          Element.withTag ⟨tag, before ++ .element name children :: after⟩ sought =
            Element.withTag ⟨tag, before ++ after⟩ sought := fun _ => withTag_insert_of_ne
      apply sameReading_of_seesAlike
      refine seesAlike_of_keyed keyed rfl (fun sought member => ?_) fun sought member => ?_
      · exact Element.first?_of_withTag (others sought fun same => unsought.1 (same ▸ member))
      · exact others sought fun same => unsought.2 (same ▸ member)
  | @again part tag name before after children field earlier =>
      obtain ⟨keyed, apart⟩ := keyed_of_mem_fields field
      obtain ⟨first, earlier⟩ := earlier
      apply sameReading_of_seesAlike
      refine seesAlike_of_keyed keyed rfl (fun sought _ => ?_) fun sought member => ?_
      · by_cases same : name = sought
        · subst same
          exact first?_insert_of_mem earlier
        · exact Element.first?_of_withTag (withTag_insert_of_ne same)
      · exact withTag_insert_of_ne fun same => apart (same ▸ member)
  | @reordered part tag children children' keyed moved kept =>
      apply sameReading_of_seesAlike
      exact seesAlike_of_keyed keyed rfl (fun sought _ => Element.first?_of_withTag (kept sought))
        fun sought _ => kept sought
  | @inside part tag name before after children children' inner ih =>
      apply sameReading_of_seesAlike
      refine seesAlike_of_forall₂ rfl ?_ fun _ => ?_
      · rw [elements_insert, elements_insert]
        refine List.rel_append (List.rel_append (forall₂_alike_refl _) ?_) (forall₂_alike_refl _)
        exact .cons ⟨rfl, ih⟩ .nil
      · cases before with
        | nil => rfl
        | cons node _ => cases node <;> rfl

/-- **A check is read alike whatever is edited that its readers do not look at.**  Any
number of edits, made or undone anywhere in the tree, leave the check or the refusal as it
is; so two texts that stand for such trees, to whatever reads markup, are the same check, or
are refused alike. -/
theorem read_of_edits {top top' : Element} (edits : Relation.EqvGen (Edited .top) top top') :
    Check.ofElement top' = Check.ofElement top ∧
      ∀ (reader : Markup.Reader) (text text' : String), reader text = .ok top →
        reader text' = .ok top' → Check.read reader text' = Check.read reader text := by
  have same : Check.ofElement top' = Check.ofElement top := by
    induction edits with
    | rel e e' edited => exact edited.sameReading
    | refl e => rfl
    | symm e e' _ ih => exact ih.symm
    | trans e e' e'' _ _ first second => exact second.trans first
  refine ⟨same, fun reader text text' parsed parsed' => ?_⟩
  rw [Check.read, Check.read, parsed, parsed']
  exact same

namespace Example

open Markup (Builder Token)

/-- A text whose characters are allowed is parsed by building from its tokens. -/
theorem parse_of_scan {text : String} {tokens : List Token}
    (allowed : (Markup.skipByteOrderMark text.toList).all Markup.isAllowed)
    (scanned : (Markup.skipDeclaration (Markup.skipByteOrderMark text.toList) >>=
      Markup.scan).toOption = some tokens) :
    Element.parse text = tokens.foldlM Builder.step {} >>= Builder.finish := by
  have parsed : Element.parse text =
      (Markup.skipDeclaration (Markup.skipByteOrderMark text.toList) >>= Markup.scan) >>=
        fun tokens => tokens.foldlM Builder.step {} >>= Builder.finish := by
    simp only [Element.parse, allowed, bind_assoc]
    rfl
  rw [parsed]
  cases found : Markup.skipDeclaration (Markup.skipByteOrderMark text.toList) >>= Markup.scan with
  | error fault => rw [found] at scanned; cases scanned
  | ok _ => rw [found] at scanned; cases scanned; rfl

mutual

/-- What a node is written with, in pieces. -/
def spelled : Node → List String
  | .element tag children => ["<", tag, ">"] ++ spelledAll children ++ ["</", tag, ">"]
  | .text content => [content]
  | .comment => ["<!---->"]
  | .instruction => ["<?p?>"]

def spelledAll : List Node → List String
  | [] => []
  | node :: rest => spelled node ++ spelledAll rest

end

mutual

def tokens : Node → List Token
  | .element tag children =>
      [.opening ⟨"", tag⟩ [] false] ++ tokensAll children ++ [.closing ⟨"", tag⟩]
  | .text content => [.text (content.toList.map .literal)]
  | .comment => [.comment]
  | .instruction => [.instruction]

def tokensAll : List Node → List Token
  | [] => []
  | node :: rest => tokens node ++ tokensAll rest

end

/-- A document of one element. -/
def document (top : Element) : String :=
  String.join (spelled (.element top.tag top.children))

def leaf (tag content : String) : Node := .element tag [.text content]

/-- A check of one request, with some nodes before its class. -/
def checkOf (front request : List Node) : Element :=
  ⟨"c", front ++ [
    .element "class" [leaf "id" "1", leaf "item" "9", leaf "level" "2", leaf "title" "t"],
    .element "requests" [.element "request" request]]⟩

def fields : List Node :=
  [leaf "name" "n", leaf "obj" "node", leaf "geom" "point", leaf "from" "nodes"]

def conjunction (between : List Node) : List Node :=
  [leaf "has_tag" "a"] ++ between ++ [leaf "has_tag" "b"]

/-- The nodes of a request, with some nodes within its filter and within the `and` in that. -/
def requestOf (within between : List Node) : List Node :=
  fields ++ [.element "filter" (within ++ [.element "and" (conjunction between)])]

/-- A check with a comment. -/
def bare : Element :=
  checkOf [.comment] (requestOf [] [])

/-- The same check without it, with a comment in the filter of the request, an instruction
in the `and` of that, a second `from` and a stray `y` behind the filter, and two children of the
request in the other order. -/
def laden : Element :=
  checkOf [] ([leaf "obj" "node", leaf "name" "n"] ++
    ((requestOf [.comment] [.instruction]).drop 2 ++ [leaf "from" "w", .element "y" []]))

theorem edited_checkOf {request request' : List Node}
    (inner : Edited .request ⟨"request", request⟩ ⟨"request", request'⟩) :
    Relation.EqvGen (Edited .top) (checkOf [] request) (checkOf [] request') := by
  have within : Edited .requests ⟨"requests", [.element "request" request]⟩
      ⟨"requests", [.element "request" request']⟩ := .inside [] inner
  exact .rel _ _ (.inside [.element "class" _] within)

theorem edited_requestOf {within within' between between' : List Node}
    (inner : Edited .filter ⟨"filter", within ++ [.element "and" (conjunction between)]⟩
      ⟨"filter", within' ++ [.element "and" (conjunction between')]⟩) :
    Edited .request ⟨"request", requestOf within between⟩
      ⟨"request", requestOf within' between'⟩ :=
  .inside fields inner

/-- Every kind of edit, one of them undone. -/
theorem edits_bare_laden : Relation.EqvGen (Edited .top) bare laden := by
  have uncommented : Edited .top (checkOf [] (requestOf [] [])) bare :=
    .note [] (by decide) rfl
  have connective : Edited .connective ⟨"and", conjunction []⟩
      ⟨"and", conjunction [.instruction]⟩ := .note [leaf "has_tag" "a"] (by decide) rfl
  have filter : Edited .filter ⟨"filter", [] ++ [.element "and" (conjunction [.instruction])]⟩
      ⟨"filter", [.comment] ++ [.element "and" (conjunction [.instruction])]⟩ :=
    .note [] (by decide) rfl
  have repeated : Edited .request ⟨"request", requestOf [.comment] [.instruction] ++ []⟩
      ⟨"request", requestOf [.comment] [.instruction] ++ [leaf "from" "w"]⟩ :=
    .again _ (by decide) ⟨[.text "nodes"], .tail _ (.tail _ (.tail _ (.head _)))⟩
  have extended : Edited .request
      ⟨"request", (requestOf [.comment] [.instruction] ++ [leaf "from" "w"]) ++ []⟩
      ⟨"request", (requestOf [.comment] [.instruction] ++ [leaf "from" "w"]) ++
        [.element "y" []]⟩ := .stranger _ rfl (by decide)
  have swapped : ∀ rest, Edited .request ⟨"request", leaf "name" "n" :: leaf "obj" "node" :: rest⟩
      ⟨"request", leaf "obj" "node" :: leaf "name" "n" :: rest⟩ := by
    intro rest
    refine .reordered rfl (.swap _ _ _) fun name => ?_
    by_cases first : "name" = name
    · subst first; rfl
    · by_cases second : "obj" = name
      · subst second; rfl
      · simp [Element.withTag, Element.elements, Node.element?, leaf, first, second]
  exact .trans _ _ _ (.symm _ _ (.rel _ _ uncommented)) <|
    .trans _ _ _ (edited_checkOf (edited_requestOf (.inside [] connective))) <|
    .trans _ _ _ (edited_checkOf (edited_requestOf filter)) <|
    .trans _ _ _ (edited_checkOf repeated) <|
    .trans _ _ _ (edited_checkOf extended) (edited_checkOf (swapped _))

theorem parse_bare : Element.parse (document bare) = .ok bare := by
  have written : (Markup.skipDeclaration (Markup.skipByteOrderMark (document bare).toList) >>=
      Markup.scan).toOption = some (tokens (.element bare.tag bare.children)) := by
    rw [document, String.toList_join]
    decide +kernel
  rw [parse_of_scan (by rw [document, String.toList_join]; decide +kernel) written]
  rfl

theorem parse_laden : Element.parse (document laden) = .ok laden := by
  have written : (Markup.skipDeclaration (Markup.skipByteOrderMark (document laden).toList) >>=
      Markup.scan).toOption = some (tokens (.element laden.tag laden.children)) := by
    rw [document, String.toList_join]
    decide +kernel
  rw [parse_of_scan (by rw [document, String.toList_join]; decide +kernel) written]
  rfl

end Example

/-- Both are read, as the same check. -/
theorem read_laden_as_bare :
    Check.ofElement Example.laden = Check.ofElement Example.bare ∧
      Check.read Element.parse (Example.document Example.laden) =
        Check.read Element.parse (Example.document Example.bare) ∧
      ((Check.ofElement Example.bare).toOption.map fun c => c.requests.map (·.name)) =
        some ["n"] := by
  obtain ⟨trees, texts⟩ := read_of_edits Example.edits_bare_laden
  exact ⟨trees, texts Element.parse _ _ Example.parse_bare Example.parse_laden, by decide +kernel⟩

end MapAudit
