import MapAudit.Proofs.Comparison
import MapAudit.Proofs.Elements

/-!
# Faults of fields and predicates

Why a field or a predicate is not read, told from its element alone.  A tree of predicates
is read by a recursion that stops at the first refusal; `Predicate.ofElement_eq_error_iff` says
which refusal that is: the own fault of the first faulty element in document order.
-/

namespace MapAudit

set_option autoImplicit false

open Markup (Element Node)

/-! ## Texts of elements -/

namespace Markup.Element

/-- `text` is what an element holds between blanks, and not nothing. -/
def Holds (e : Element) (text : String) : Prop :=
  text ≠ "" ∧ ∃ content, e.text? = some content ∧ Text.trim content = text

/-- `text` is what the first child with a tag holds. -/
def Field (e : Element) (tag text : String) : Prop :=
  ∃ child, e.first? tag = some child ∧ child.Holds text

/-- Why a field is not read. -/
inductive FieldFault (e : Element) (tag : String) : CheckError.Cause → Prop where
  | missing (absent : e.first? tag = none) :
      FieldFault e tag (.malformedDocument (.missingChild e.tag tag))
  | empty {child : Element} (first : e.first? tag = some child) (blank : ∀ text, ¬ child.Holds text) :
      FieldFault e tag (.malformedDocument (.emptyElement tag))

end Markup.Element

section Fields

variable {e : Element} {tag text : String} {err : CheckError}

theorem textOf_eq_ok_iff : textOf e tag = .ok text ↔ e.Holds text := by
  unfold textOf Element.Holds
  cases e.text? with
  | none => simp
  | some content =>
      by_cases blank : Text.trim content = ""
      · simp only [blank, if_true, Option.some.injEq]
        constructor
        · intro read
          cases read
        · rintro ⟨filled, _, rfl, same⟩
          exact absurd (same.symm.trans blank) filled
      · simp only [blank, if_false, Except.ok.injEq]
        constructor
        · rintro rfl
          exact ⟨blank, content, rfl, rfl⟩
        · rintro ⟨_, _, same, trimmed⟩
          cases same
          exact trimmed

theorem Markup.Element.Holds.unique {other : String} (holds : e.Holds text)
    (also : e.Holds other) : text = other := by
  obtain ⟨-, content, found, trimmed⟩ := holds
  obtain ⟨-, content', found', trimmed'⟩ := also
  cases found.symm.trans found'
  exact trimmed.symm.trans trimmed'

theorem textOf_eq_error_iff :
    textOf e tag = .error err ↔
      (∀ text, ¬ e.Holds text) ∧ err = .malformedDocument (.emptyElement tag) := by
  constructor
  · intro refused
    refine ⟨fun text held => ?_, ?_⟩
    · rw [textOf_eq_ok_iff.2 held] at refused
      cases refused
    · unfold textOf at refused
      split at refused
      · split at refused
        · exact (Except.error.inj refused).symm
        · cases refused
      · exact (Except.error.inj refused).symm
  · rintro ⟨blank, rfl⟩
    unfold textOf
    split
    · rename_i content found
      split
      · rfl
      · rename_i filled
        exact absurd ⟨filled, content, found, rfl⟩ (blank _)
    · rfl

theorem fieldOf_eq_ok_iff : fieldOf e tag = .ok text ↔ e.Field tag text := by
  unfold fieldOf childOf Element.Field
  cases e.first? tag with
  | none => simp [bind, Except.bind]
  | some child =>
      simp only [bind_eq_ok_iff, textOf_eq_ok_iff, Except.ok.injEq, Option.some.injEq]

theorem fieldOf_eq_error_iff :
    fieldOf e tag = .error err ↔ err.request = none ∧ e.FieldFault tag err.cause := by
  unfold fieldOf childOf
  constructor
  · intro refused
    cases found : e.first? tag with
    | none =>
        rw [found] at refused
        cases refused
        exact ⟨rfl, .missing found⟩
    | some child =>
        rw [found] at refused
        obtain ⟨blank, rfl⟩ := textOf_eq_error_iff.1 refused
        exact ⟨rfl, .empty found blank⟩
  · obtain ⟨cause, request⟩ := err
    rintro ⟨unlocated, fault⟩
    cases unlocated
    cases fault with
    | missing absent => rw [absent]; rfl
    | empty first blank =>
        rw [first]
        exact textOf_eq_error_iff.2 ⟨blank, rfl⟩

end Fields

/-! ## Forms of texts -/

section Forms

variable {err : CheckError}

theorem checkTagKey_eq_error_iff {key : String} (filled : key ≠ "") :
    checkTagKey key = .error err ↔
      maxTagBytes < key.utf8ByteSize ∧ err = .invalidLiteral .tagKey key := by
  unfold checkTagKey
  by_cases short : key.utf8ByteSize ≤ maxTagBytes
  · simp [filled, short]
  · simp [filled, short, eq_comm, not_le.1 short]

theorem checkIdentifier_eq_error_iff {text : String} :
    checkIdentifier text = .error err ↔
      ¬ Sql.isIdentifier text ∧ err = .invalidLiteral .identifier text := by
  unfold checkIdentifier
  by_cases accepted : Sql.isIdentifier text
  · simp [accepted]
  · simp [accepted, eq_comm]

end Forms

/-! ## The first faulty predicate -/

namespace Predicate

/-- The tags of the predicates that are read from their text. -/
def leafTags : List String := ["has_tag", "has_not_tag", "key_value", "intersects"]

/-- What is wrong with a predicate element by itself, whatever its parts are. -/
inductive Faulty (e : Element) : CheckError → Prop where
  /-- A connective without parts. -/
  | vacant {connective : Connective} (tag : e.tag = connective.name) (none : e.elements = []) :
      Faulty e (.malformedDocument (.emptyConnective connective))
  | blank (leaf : e.tag ∈ leafTags) (blank : ∀ text, ¬ e.Holds text) :
      Faulty e (.malformedDocument (.emptyElement e.tag))
  | longKey {key : String} (tag : e.tag = "has_tag" ∨ e.tag = "has_not_tag")
      (holds : e.Holds key) (long : maxTagBytes < key.utf8ByteSize) :
      Faulty e (.invalidLiteral .tagKey key)
  | comparison {text : String} {err : CheckError} (tag : e.tag = "key_value")
      (holds : e.Holds text) (refused : Refused text err) : Faulty e err
  | target {text : String} (tag : e.tag = "intersects") (holds : e.Holds text)
      (bad : ¬ Sql.isIdentifier text) : Faulty e (.invalidLiteral .identifier text)
  | unknown (joins : ∀ connective : Connective, e.tag ≠ connective.name)
      (tests : e.tag ∉ leafTags) : Faulty e (.unknownPredicate e.tag)

mutual

/-- The predicate elements of a tree in document order: below a connective its parts,
below any other element nothing. -/
def inNode : Node → List Element
  | .element tag children =>
      ⟨tag, children⟩ :: if tag = "and" ∨ tag = "or" then inNodes children else []
  | _ => []

def inNodes : List Node → List Element
  | [] => []
  | node :: rest => inNode node ++ inNodes rest

end

/-- No predicate among some elements is faulty. -/
def Sound (es : List Element) : Prop :=
  ∀ e ∈ es, ∀ err, ¬ Faulty e err

/-- `err` is what is wrong with the first faulty predicate among some elements. -/
def FirstFault (es : List Element) (err : CheckError) : Prop :=
  ∃ before e after, es = before ++ e :: after ∧ Sound before ∧ Faulty e err

section First

variable {e : Element} {es es' : List Element} {err : CheckError}

theorem not_firstFault_nil : ¬ FirstFault [] err := by
  rintro ⟨before, e, after, split, -, -⟩
  cases before <;> cases split

theorem firstFault_cons_iff :
    FirstFault (e :: es) err ↔ Faulty e err ∨ (∀ fault, ¬ Faulty e fault) ∧ FirstFault es err := by
  constructor
  · rintro ⟨before, found, after, split, sound, faulty⟩
    cases before with
    | nil =>
        cases split
        exact .inl faulty
    | cons first rest =>
        cases split
        refine .inr ⟨sound e (by simp), rest, found, after, rfl, ?_, faulty⟩
        exact fun other member => sound other (List.mem_cons_of_mem e member)
  · rintro (faulty | ⟨sound, before, found, after, rfl, others, faulty⟩)
    · exact ⟨[], e, es, rfl, fun _ member => absurd member List.not_mem_nil, faulty⟩
    · exact ⟨e :: before, found, after, rfl, List.forall_mem_cons.2 ⟨sound, others⟩, faulty⟩

/-- Among some elements a predicate is faulty first, or none is faulty. -/
theorem sound_iff_not_firstFault : Sound es ↔ ∀ err, ¬ FirstFault es err := by
  induction es with
  | nil => exact ⟨fun _ _ => not_firstFault_nil, fun _ _ member => absurd member List.not_mem_nil⟩
  | cons e es ih =>
      have cons : Sound (e :: es) ↔ (∀ err, ¬ Faulty e err) ∧ Sound es := List.forall_mem_cons
      rw [cons, ih]
      simp only [firstFault_cons_iff]
      constructor
      · rintro ⟨sound, others⟩ err (faulty | ⟨-, later⟩)
        · exact sound err faulty
        · exact others err later
      · intro none
        have sound : ∀ err, ¬ Faulty e err := fun err faulty => none err (.inl faulty)
        exact ⟨sound, fun err later => none err (.inr ⟨sound, later⟩)⟩

theorem firstFault_append_iff :
    FirstFault (es ++ es') err ↔ FirstFault es err ∨ Sound es ∧ FirstFault es' err := by
  induction es with
  | nil =>
      have sound : Sound [] := fun _ member => absurd member List.not_mem_nil
      simp [not_firstFault_nil, sound]
  | cons e es ih =>
      have cons : Sound (e :: es) ↔ (∀ err, ¬ Faulty e err) ∧ Sound es := List.forall_mem_cons
      rw [List.cons_append, firstFault_cons_iff, firstFault_cons_iff, ih, cons]
      tauto

end First

/-! ### Predicates that are read from their text -/

section Leaves

variable {e : Element} {err : CheckError}

theorem name_not_mem_leafTags (connective : Connective) : connective.name ∉ leafTags := by
  cases connective <;> decide

/-- Without a text nothing else is wrong with a predicate that is read from one. -/
theorem faulty_iff_of_blank (leaf : e.tag ∈ leafTags) (none : ∀ text, ¬ e.Holds text) :
    Faulty e err ↔ err = .malformedDocument (.emptyElement e.tag) := by
  constructor
  · intro faulty
    cases faulty with
    | vacant tag => exact absurd (tag ▸ leaf) (name_not_mem_leafTags _)
    | blank => rfl
    | longKey _ holds => exact absurd holds (none _)
    | comparison _ holds => exact absurd holds (none _)
    | target _ holds => exact absurd holds (none _)
    | unknown _ tests => exact absurd leaf tests
  · rintro rfl
    exact .blank leaf none

/-- With a text, what is wrong is the text, and what it has to be depends on the tag. -/
theorem faulty_iff_of_holds {text : String} (leaf : e.tag ∈ leafTags) (holds : e.Holds text) :
    Faulty e err ↔
      (e.tag = "has_tag" ∨ e.tag = "has_not_tag") ∧
          maxTagBytes < text.utf8ByteSize ∧ err = .invalidLiteral .tagKey text ∨
        e.tag = "key_value" ∧ Refused text err ∨
        e.tag = "intersects" ∧ ¬ Sql.isIdentifier text ∧
          err = .invalidLiteral .identifier text := by
  constructor
  · intro faulty
    cases faulty with
    | vacant tag => exact absurd (tag ▸ leaf) (name_not_mem_leafTags _)
    | blank _ none => exact absurd holds (none text)
    | longKey tag other long =>
        obtain rfl := holds.unique other
        exact .inl ⟨tag, long, rfl⟩
    | comparison tag other refused =>
        obtain rfl := holds.unique other
        exact .inr (.inl ⟨tag, refused⟩)
    | target tag other bad =>
        obtain rfl := holds.unique other
        exact .inr (.inr ⟨tag, bad, rfl⟩)
    | unknown _ tests => exact absurd leaf tests
  · rintro (⟨tag, long, rfl⟩ | ⟨tag, refused⟩ | ⟨tag, bad, rfl⟩)
    · exact .longKey tag holds long
    · exact .comparison tag holds refused
    · exact .target tag holds bad

/-- A predicate that is read from its text is refused for its own fault if that is what its
text is refused for. -/
theorem textOf_bind_eq_error_iff {next : String → Except CheckError Predicate}
    (leaf : e.tag ∈ leafTags)
    (own : ∀ text, e.Holds text → (next text = .error err ↔ Faulty e err)) :
    textOf e e.tag >>= next = .error err ↔ Faulty e err := by
  by_cases blank : ∀ text, ¬ e.Holds text
  · rw [bind_eq_error_iff, textOf_eq_error_iff, faulty_iff_of_blank leaf blank]
    simp [textOf_eq_ok_iff, blank]
  · obtain ⟨text, holds⟩ := not_forall_not.1 blank
    rw [textOf_eq_ok_iff.2 holds]
    exact own text holds

theorem checkTagKey_eq_error_iff_faulty {key : String}
    (tag : e.tag = "has_tag" ∨ e.tag = "has_not_tag") (holds : e.Holds key) :
    checkTagKey key = .error err ↔ Faulty e err := by
  have leaf : e.tag ∈ leafTags := by rcases tag with tag | tag <;> simp [leafTags, tag]
  have others : e.tag ≠ "key_value" ∧ e.tag ≠ "intersects" := by
    rcases tag with tag | tag <;> simp [tag]
  rw [checkTagKey_eq_error_iff holds.1, faulty_iff_of_holds leaf holds]
  simp [tag, others]

theorem readKeyValue_eq_error_iff_faulty {text : String} (tag : e.tag = "key_value")
    (holds : e.Holds text) : readKeyValue text = .error err ↔ Faulty e err := by
  rw [readKeyValue_eq_error_iff, faulty_iff_of_holds (by simp [leafTags, tag]) holds]
  simp [tag]

theorem checkIdentifier_eq_error_iff_faulty {text : String} (tag : e.tag = "intersects")
    (holds : e.Holds text) : checkIdentifier text = .error err ↔ Faulty e err := by
  rw [checkIdentifier_eq_error_iff, faulty_iff_of_holds (by simp [leafTags, tag]) holds]
  simp [tag]

/-- Of a tag that is no predicate nothing else is wrong. -/
theorem faulty_unknown_iff (joins : ∀ connective : Connective, e.tag ≠ connective.name)
    (tests : e.tag ∉ leafTags) : Faulty e err ↔ err = .unknownPredicate e.tag := by
  constructor
  · intro faulty
    cases faulty with
    | vacant tag => exact absurd tag (joins _)
    | blank leaf => exact absurd leaf tests
    | longKey tag => rcases tag with tag | tag <;> simp [leafTags, tag] at tests
    | comparison tag => simp [leafTags, tag] at tests
    | target tag => simp [leafTags, tag] at tests
    | unknown => rfl
  · rintro rfl
    exact .unknown joins tests

/-- **An element that is no connective is refused for its own fault.** -/
theorem ofElement_eq_error_iff_faulty (notAnd : e.tag ≠ "and") (notOr : e.tag ≠ "or") :
    ofElement e = .error err ↔ Faulty e err := by
  rw [ofElement, if_neg notAnd, if_neg notOr]
  split_ifs with hasTag lacksTag keyValue intersects
  · exact textOf_bind_eq_error_iff (by simp [leafTags, hasTag]) fun _ holds =>
      bind_pure_eq_error_iff.trans (checkTagKey_eq_error_iff_faulty (.inl hasTag) holds)
  · exact textOf_bind_eq_error_iff (by simp [leafTags, lacksTag]) fun _ holds =>
      bind_pure_eq_error_iff.trans (checkTagKey_eq_error_iff_faulty (.inr lacksTag) holds)
  · exact textOf_bind_eq_error_iff (by simp [leafTags, keyValue]) fun _ =>
      readKeyValue_eq_error_iff_faulty keyValue
  · exact textOf_bind_eq_error_iff (by simp [leafTags, intersects]) fun _ holds =>
      bind_pure_eq_error_iff.trans (checkIdentifier_eq_error_iff_faulty intersects holds)
  · have joins : ∀ connective : Connective, e.tag ≠ connective.name := by
      rintro (_ | _)
      · exact notAnd
      · exact notOr
    rw [faulty_unknown_iff joins (by simp [leafTags, *]), Except.error.injEq, eq_comm]

end Leaves

/-! ### Trees -/

section Trees

variable {err : CheckError}

theorem inNodes_eq_nil_iff {nodes : List Node} :
    inNodes nodes = [] ↔ nodes.filterMap Node.element? = [] := by
  induction nodes with
  | nil => simp [inNodes]
  | cons node rest ih => cases node <;> simp [inNodes, inNode, Node.element?, ih, List.filterMap_cons]

/-- As many predicates are read as there are elements. -/
theorem length_of_ofNodes {nodes : List Node} {parts : List Predicate}
    (read : ofNodes nodes = .ok parts) :
    parts.length = (nodes.filterMap Node.element?).length := by
  rw [ofNodes_eq_mapM] at read
  generalize nodes.filterMap Node.element? = es at read
  induction es generalizing parts with
  | nil => cases read; rfl
  | cons e es ih =>
      rw [List.mapM_cons] at read
      obtain ⟨p, -, read⟩ := bind_eq_ok_iff.1 read
      obtain ⟨others, later, done⟩ := bind_eq_ok_iff.1 read
      cases done
      rw [List.length_cons, List.length_cons, ih later]

theorem make_eq_error_iff {connective : Connective} {parts : List Predicate} :
    make connective parts = .error err ↔
      parts = [] ∧ err = .malformedDocument (.emptyConnective connective) := by
  cases parts with
  | nil => simp [make, eq_comm]
  | cons p rest => cases connective <;> simp [make]

/-- A connective is faulty by itself only if it has no parts. -/
theorem faulty_connective_iff {connective : Connective} {e : Element}
    (tag : e.tag = connective.name) :
    Faulty e err ↔
      e.elements = [] ∧ err = .malformedDocument (.emptyConnective connective) := by
  constructor
  · intro faulty
    have noLeaf : e.tag ∉ leafTags := tag ▸ name_not_mem_leafTags connective
    cases faulty with
    | @vacant other tag' none =>
        have same : other = connective := by
          cases other <;> cases connective <;> simp_all [Connective.name]
        exact ⟨none, by rw [same]⟩
    | blank leaf => exact absurd leaf noLeaf
    | longKey tag' =>
        rcases tag' with tag' | tag'
        · simp [leafTags, tag'] at noLeaf
        · simp [leafTags, tag'] at noLeaf
    | comparison tag' => simp [leafTags, tag'] at noLeaf
    | target tag' => simp [leafTags, tag'] at noLeaf
    | unknown joins => exact absurd tag (joins connective)
  · rintro ⟨none, rfl⟩
    exact .vacant tag none

/-- A connective is refused for want of parts, or for the first fault among them. -/
theorem connective_eq_error_iff (connective : Connective) {e : Element}
    (tag : e.tag = connective.name)
    (inner : ∀ {err}, ofNodes e.children = .error err ↔ FirstFault (inNodes e.children) err) :
    ofNodes e.children >>= make connective = .error err ↔
      FirstFault (e :: inNodes e.children) err := by
  rw [bind_eq_error_iff, firstFault_cons_iff, inner]
  simp only [faulty_connective_iff tag, make_eq_error_iff]
  by_cases none : e.elements = []
  · have read : ofNodes e.children = .ok [] := by
      rw [ofNodes_eq_mapM]
      exact congrArg (List.mapM ofElement) none
    rw [inNodes_eq_nil_iff.2 none, read]
    simp [not_firstFault_nil, none]
  · have filled : ∀ parts, ofNodes e.children = .ok parts → parts ≠ [] := by
      rintro _ read rfl
      exact none (List.eq_nil_of_length_eq_zero (length_of_ofNodes read).symm)
    constructor
    · rintro (inside | ⟨parts, read, empty, -⟩)
      · exact .inr ⟨fun _ own => none own.1, inside⟩
      · exact absurd empty (filled parts read)
    · rintro (own | ⟨-, inside⟩)
      · exact absurd own.1 none
      · exact .inl inside

/-- What is refused with an error exactly if some predicate is faulty first is accepted if
all are sound. -/
theorem exists_ok_iff_sound {α : Type} {x : Except CheckError α} {es : List Element}
    (refused : ∀ err, x = .error err ↔ FirstFault es err) : (∃ a, x = .ok a) ↔ Sound es := by
  rw [sound_iff_not_firstFault]
  simp only [← refused]
  cases x <;> simp

mutual

/-- **A tree is refused for the first faulty predicate in it**, in document order. -/
theorem ofNode_eq_error_iff : (node : Node) → {err : CheckError} →
    (ofNode node = .error err ↔ FirstFault (inNode node) err)
  | .element tag children, err => by
      have inner := @ofNodes_eq_error_iff children
      rw [ofNode_element, map_eq_error_iff, inNode]
      by_cases isAnd : tag = "and"
      · rw [if_pos (.inl isAnd), ofElement, if_pos isAnd]
        exact connective_eq_error_iff .and isAnd inner
      · by_cases isOr : tag = "or"
        · rw [if_pos (.inr isOr), ofElement, if_neg isAnd, if_pos isOr]
          exact connective_eq_error_iff .or isOr inner
        · rw [if_neg (not_or.2 ⟨isAnd, isOr⟩), ofElement_eq_error_iff_faulty isAnd isOr,
            firstFault_cons_iff]
          simp [not_firstFault_nil]
  | .text _, err => by simp [ofNode, inNode, not_firstFault_nil]
  | .comment, err => by simp [ofNode, inNode, not_firstFault_nil]
  | .instruction, err => by simp [ofNode, inNode, not_firstFault_nil]

theorem ofNodes_eq_error_iff : (nodes : List Node) → {err : CheckError} →
    (ofNodes nodes = .error err ↔ FirstFault (inNodes nodes) err)
  | [], err => by simp [ofNodes, inNodes, not_firstFault_nil]
  | node :: rest, err => by
      have first := @ofNode_eq_error_iff node
      have later := @ofNodes_eq_error_iff rest
      have sound := exists_ok_iff_sound fun err => @first err
      rw [ofNodes, bind_eq_error_iff, inNodes, firstFault_append_iff, first, ← sound, ← later,
        ← exists_and_right]
      refine or_congr_right (exists_congr fun read => and_congr_right fun _ => ?_)
      cases read with
      | none => rfl
      | some p => exact map_eq_error_iff

end

end Trees

/-- The predicate elements of a tree in document order, from its top element. -/
def predicatesIn (top : Element) : List Element :=
  inNode (.element top.tag top.children)

theorem ofElement_eq_error_iff {top : Element} {err : CheckError} :
    ofElement top = .error err ↔ FirstFault (predicatesIn top) err := by
  rw [predicatesIn, ← ofNode_eq_error_iff, ofNode_element, map_eq_error_iff]

/-- Why a filter is not read. -/
inductive FilterFault (filter : Element) : CheckError → Prop where
  | vacant (none : filter.elements = []) : FilterFault filter (.malformedDocument .emptyFilter)
  | crowded (several : 1 < filter.elements.length) :
      FilterFault filter (.malformedDocument .crowdedFilter)
  /-- The first faulty predicate in document order. -/
  | predicate {top : Element} {err : CheckError} (only : filter.elements = [top])
      (first : FirstFault (predicatesIn top) err) : FilterFault filter err

theorem ofFilter_eq_error_iff {filter : Element} {err : CheckError} :
    ofFilter filter = .error err ↔ FilterFault filter err := by
  rw [ofFilter_eq]
  constructor
  · intro refused
    split at refused
    · rename_i none
      cases refused
      exact .vacant none
    · rename_i top only
      exact .predicate only (ofElement_eq_error_iff.1 refused)
    · rename_i several
      cases refused
      exact .crowded (by simp [several])
  · intro fault
    cases fault with
    | vacant none => rw [none]
    | crowded several =>
        split
        · rename_i none
          simp [none] at several
        · rename_i only
          simp [only] at several
        · rfl
    | predicate only first =>
        rw [only]
        exact ofElement_eq_error_iff.2 first

/-- A fault of a predicate concerns no request by itself. -/
theorem Faulty.request {e : Element} {err : CheckError} (faulty : Faulty e err) :
    err.request = none := by
  cases faulty with
  | comparison _ _ refused => cases refused <;> rfl
  | _ => rfl

theorem FilterFault.request {filter : Element} {err : CheckError}
    (fault : FilterFault filter err) : err.request = none := by
  cases fault with
  | predicate _ first =>
      obtain ⟨-, e, -, -, -, faulty⟩ := first
      exact faulty.request
  | _ => rfl

end Predicate

end MapAudit
