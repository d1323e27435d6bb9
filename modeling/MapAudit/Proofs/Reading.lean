import MapAudit.Check.Document
import MapAudit.Markup.Document
import MapAudit.Proofs.Construction
import MapAudit.Proofs.Grammar
import MapAudit.Proofs.SingleStatement

/-!
# What documents give

Every check that is read from a document keeps all the rules of construction at once
(`Check.read_gives_lawful_check`).  The rules stand here apart from the functions that enforce
them, which are spread over the reader and the constructors: names and distances are
words of a language, and the rules for a predicate concern every tree inside it
(`Predicate.subtrees`), so that no text gets into a statement unchecked.
-/

namespace MapAudit

set_option autoImplicit false

open Markup (Element Node)

/-! ## Rules for texts -/

/-- A name: a word of the language of names that is at most 63 bytes long. -/
structure Sql.IsName (text : String) : Prop where
  word : text.toList ∈ Sql.Grammar.identifier
  short : text.utf8ByteSize ≤ 63

/-- A text with something in it and no blanks around it. -/
structure IsField (text : String) : Prop where
  filled : text ≠ ""
  trimmed : Text.Trimmed text.toList

/-- A tag value: a text without blanks around it that is at most 255 bytes long. -/
structure IsTagValue (text : String) : Prop where
  trimmed : Text.Trimmed text.toList
  short : text.utf8ByteSize ≤ 255

/-- A tag key: a value with something in it. -/
structure IsTagKey (text : String) : Prop extends IsTagValue text where
  filled : text ≠ ""

theorem Sql.isName_of_isIdentifier {text : String} (accepted : isIdentifier text) :
    IsName text := by
  obtain ⟨word, short⟩ := isIdentifier_iff.1 accepted
  exact ⟨word, short⟩

/-- What is read as the text of an element has something in it and no blanks around it. -/
theorem isField_of_textOf {e : Element} {tag text : String} (read : textOf e tag = .ok text) :
    IsField text := by
  unfold textOf at read
  split at read
  · split at read
    · cases read
    · rename_i content _ filled
      cases read
      exact ⟨filled, by rw [Text.toList_trim]; exact Text.trimmed_trimChars _⟩
  · cases read

theorem isField_of_fieldOf {e : Element} {tag text : String} (read : fieldOf e tag = .ok text) :
    IsField text := by
  obtain ⟨child, -, inside⟩ := bind_eq_ok_iff.1 read
  exact isField_of_textOf inside

theorem checkTagKey_eq_ok_iff {text : String} {u : Unit} :
    checkTagKey text = .ok u ↔ text ≠ "" ∧ text.utf8ByteSize ≤ maxTagBytes := by
  unfold checkTagKey
  split <;> simp_all

theorem isTagKey_of_checkTagKey {text : String} {u : Unit} (trimmed : Text.Trimmed text.toList)
    (accepted : checkTagKey text = .ok u) : IsTagKey text := by
  obtain ⟨filled, short⟩ := checkTagKey_eq_ok_iff.1 accepted
  exact ⟨⟨trimmed, short⟩, filled⟩

theorem checkTagValue_eq_ok_iff {text : String} {u : Unit} :
    checkTagValue text = .ok u ↔ text.utf8ByteSize ≤ maxTagBytes := by
  unfold checkTagValue
  split <;> simp_all

/-! ## Rules for predicates -/

namespace Predicate

mutual

/-- A tree and all the trees inside it. -/
def subtrees : Predicate → List Predicate
  | .all parts => .all parts :: subtreesAll parts
  | .any parts => .any parts :: subtreesAll parts
  | .hasTag key => [.hasTag key]
  | .lacksTag key => [.lacksTag key]
  | .tagEquals key value => [.tagEquals key value]
  | .tagDiffers key value => [.tagDiffers key value]
  | .intersects target => [.intersects target]

def subtreesAll : List Predicate → List Predicate
  | [] => []
  | part :: parts => subtrees part ++ subtreesAll parts

end

/-- The rule for the root of a tree. -/
def Rooted : Predicate → Prop
  | .all parts => parts ≠ []
  | .any parts => parts ≠ []
  | .hasTag key => IsTagKey key
  | .lacksTag key => IsTagKey key
  | .tagEquals key value => IsTagKey key ∧ IsTagValue value
  | .tagDiffers key value => IsTagKey key ∧ IsTagValue value
  | .intersects target => Sql.IsName target

/-- A tree that keeps the rule everywhere. -/
def Lawful (p : Predicate) : Prop :=
  ∀ q ∈ p.subtrees, q.Rooted

mutual

theorem intersects_mem_subtrees_iff {name : String} : (p : Predicate) →
    (.intersects name ∈ p.subtrees ↔ name ∈ p.mentions)
  | .all parts => by simp [subtrees, mentions, intersects_mem_subtreesAll_iff parts]
  | .any parts => by simp [subtrees, mentions, intersects_mem_subtreesAll_iff parts]
  | .hasTag _ => by simp [subtrees, mentions]
  | .lacksTag _ => by simp [subtrees, mentions]
  | .tagEquals _ _ => by simp [subtrees, mentions]
  | .tagDiffers _ _ => by simp [subtrees, mentions]
  | .intersects _ => by simp [subtrees, mentions]

theorem intersects_mem_subtreesAll_iff {name : String} : (parts : List Predicate) →
    (.intersects name ∈ subtreesAll parts ↔ name ∈ mentionsAll parts)
  | [] => by simp [subtreesAll, mentionsAll]
  | part :: parts => by
      rw [subtreesAll, mentionsAll, List.mem_append, List.mem_append,
        intersects_mem_subtrees_iff part, intersects_mem_subtreesAll_iff parts]

end

/-! ### Each way to build a tree -/

theorem lawful_of_make {connective : Connective} {parts : List Predicate} {p : Predicate}
    (inner : ∀ q ∈ subtreesAll parts, q.Rooted) (made : make connective parts = .ok p) :
    p.Lawful := by
  unfold make at made
  split at made
  · cases made
  · rename_i filled
    have filled : parts ≠ [] := by simpa using filled
    cases connective with
    | and =>
        cases made
        exact List.forall_mem_cons.2 ⟨filled, inner⟩
    | or =>
        cases made
        exact List.forall_mem_cons.2 ⟨filled, inner⟩

theorem lawful_of_makeHasTag {key : String} {p : Predicate} (field : IsField key)
    (made : makeHasTag key = .ok p) : p.Lawful := by
  obtain ⟨_, accepted, done⟩ := bind_eq_ok_iff.1 made
  cases done
  exact List.forall_mem_singleton.2 (isTagKey_of_checkTagKey field.trimmed accepted)

theorem lawful_of_makeLacksTag {key : String} {p : Predicate} (field : IsField key)
    (made : makeLacksTag key = .ok p) : p.Lawful := by
  obtain ⟨_, accepted, done⟩ := bind_eq_ok_iff.1 made
  cases done
  exact List.forall_mem_singleton.2 (isTagKey_of_checkTagKey field.trimmed accepted)

theorem lawful_of_makeIntersects {target : String} {p : Predicate}
    (made : makeIntersects target = .ok p) : p.Lawful := by
  obtain ⟨_, accepted, done⟩ := bind_eq_ok_iff.1 made
  cases done
  exact List.forall_mem_singleton.2 (Sql.isName_of_isIdentifier (checkIdentifier_eq_ok_iff.1 accepted))

/-- Key and value of a comparison are trimmed after the text is divided, so the rule holds
of them whatever the text is. -/
theorem isTagKey_of_keyAndValue {text : String} {front back : List Char} {pair : String × String}
    (read : keyAndValue text front back = .ok pair) : IsTagKey pair.1 ∧ IsTagValue pair.2 := by
  unfold keyAndValue at read
  dsimp only at read
  split at read
  · cases read
  · obtain ⟨_, key, read⟩ := bind_eq_ok_iff.1 read
    obtain ⟨_, value, done⟩ := bind_eq_ok_iff.1 read
    cases done
    have trimmed : ∀ half, Text.Trimmed (String.ofList (Text.trimChars half)).toList := by
      intro half
      rw [String.toList_ofList]
      exact Text.trimmed_trimChars half
    exact ⟨isTagKey_of_checkTagKey (trimmed front) key,
      trimmed back, checkTagValue_eq_ok_iff.1 value⟩

theorem lawful_of_readKeyValue {text : String} {p : Predicate} (read : readKeyValue text = .ok p) :
    p.Lawful := by
  unfold readKeyValue at read
  split at read
  · obtain ⟨pair, divided, done⟩ := bind_eq_ok_iff.1 read
    cases done
    exact List.forall_mem_singleton.2 (isTagKey_of_keyAndValue divided)
  · split at read
    · obtain ⟨pair, divided, done⟩ := bind_eq_ok_iff.1 read
      cases done
      exact List.forall_mem_singleton.2 (isTagKey_of_keyAndValue divided)
    · cases read

/-! ### Trees of a document -/

mutual

/-- **A predicate that is read keeps the rules**, at its root and in all its parts. -/
theorem lawful_of_ofNode : (node : Node) → {p : Predicate} → ofNode node = .ok (some p) → p.Lawful
  | .element tag children, p, read => by
      have inner := @lawful_of_ofNodes children
      rw [ofNode] at read
      split_ifs at read
      · obtain ⟨parts, parsed, made⟩ := bind_some_eq_ok_iff.1 read
        exact lawful_of_make (inner parsed) made
      · obtain ⟨parts, parsed, made⟩ := bind_some_eq_ok_iff.1 read
        exact lawful_of_make (inner parsed) made
      · obtain ⟨key, field, made⟩ := bind_some_eq_ok_iff.1 read
        exact lawful_of_makeHasTag (isField_of_textOf field) made
      · obtain ⟨key, field, made⟩ := bind_some_eq_ok_iff.1 read
        exact lawful_of_makeLacksTag (isField_of_textOf field) made
      · obtain ⟨text, -, made⟩ := bind_some_eq_ok_iff.1 read
        exact lawful_of_readKeyValue made
      · obtain ⟨target, -, made⟩ := bind_some_eq_ok_iff.1 read
        exact lawful_of_makeIntersects made

theorem lawful_of_ofNodes : (nodes : List Node) → {parts : List Predicate} →
    ofNodes nodes = .ok parts → ∀ q ∈ subtreesAll parts, q.Rooted
  | [], parts, read => by
      cases read
      simp [subtreesAll]
  | node :: nodes, parts, read => by
      rw [ofNodes] at read
      obtain ⟨first, here, read⟩ := bind_eq_ok_iff.1 read
      cases first with
      | none => exact lawful_of_ofNodes nodes read
      | some p =>
          obtain ⟨others, later, same⟩ := map_eq_ok_iff.1 read
          cases same
          exact List.forall_mem_append.2
            ⟨lawful_of_ofNode node here, lawful_of_ofNodes nodes later⟩

end

theorem lawful_of_ofFilter {filter : Element} {p : Predicate} (read : ofFilter filter = .ok p) :
    p.Lawful := by
  unfold ofFilter at read
  split at read
  · cases read
  · obtain ⟨parts, parsed, read⟩ := bind_eq_ok_iff.1 read
    cases parts with
    | nil => cases read
    | cons first others =>
        cases read
        intro q member
        exact lawful_of_ofNodes filter.children parsed q (List.mem_append_left _ member)

end Predicate

/-! ## Rules for requests -/

namespace Request

/-- A request that keeps the rules: it is a buffer by a distance or a filter by a lawful
tree.  The condition of a filter is that of its tree about the alias `el`, and its joins
are what the tree intersects with.  Neither the request nor a join is named like the alias. -/
structure Lawful (r : Request) : Prop where
  name : Sql.IsName r.name
  source : Sql.IsName r.source
  apart : r.name ≠ "el"
  operation :
    (∃ distance, r.operation = .buffer distance ∧ distance.toList ∈ Sql.Grammar.distance) ∨
    ∃ f, r.operation = .filter f ∧ f.predicate.Lawful ∧ .intersects "el" ∉ f.predicate.subtrees ∧
      r.condition? = some (f.predicate.condition "el") ∧ r.joins = f.predicate.targets ∧
      ∀ target, target ∈ r.joins ↔ .intersects target ∈ f.predicate.subtrees

theorem lawful_of_make {name : String} {feature : FeatureKind} {geometry : GeometryKind}
    {source : String} {predicate : Option Predicate} {distance : Option String} {r : Request}
    (inner : ∀ p, predicate = some p → p.Lawful)
    (made : make name feature geometry source predicate distance = .ok r) : r.Lawful := by
  obtain ⟨named, sourced, apart, operation, done, rfl⟩ := make_eq_ok_iff.1 made
  refine ⟨Sql.isName_of_isIdentifier named, Sql.isName_of_isIdentifier sourced, apart, ?_⟩
  rcases makeOperation_eq_ok_iff.1 done with ⟨p, given, -, free, rfl⟩ | ⟨d, -, -, number, rfl⟩
  · have joined : ∀ target, target ∈ p.targets ↔ .intersects target ∈ p.subtrees := fun target =>
      Predicate.mem_targets_iff.trans (Predicate.intersects_mem_subtrees_iff p).symm
    have unused : .intersects "el" ∉ p.subtrees := fun inside => free ((joined "el").2 inside)
    exact Or.inr ⟨.of p, rfl, inner p given, unused, rfl, rfl, joined⟩
  · exact Or.inl ⟨Text.trim d, rfl, Sql.isDistance_iff.1 number⟩

/-- Whether a buffer is declared or not, the request is made in the end. -/
theorem exists_make_of_buffer {e : Element} {name : String}
    {finish : Option String → Except CheckError Request} {r : Request}
    (read : (do
      match ← blockOf e name "buffer" with
      | some buffer => (some <$> textOf buffer "buffer") >>= finish
      | none => pure none >>= finish) = .ok r) :
    ∃ distance, finish distance = .ok r := by
  obtain ⟨block, -, read⟩ := bind_eq_ok_iff.1 read
  cases block with
  | none => exact ⟨none, read⟩
  | some buffer =>
      obtain ⟨distance, -, made⟩ := bind_eq_ok_iff.1 read
      exact ⟨distance, made⟩

/-- A request that is read keeps the rules of construction. -/
theorem lawful_of_readBody {e : Element} {name : String} {r : Request}
    (read : readBody e name = .ok r) : r.Lawful := by
  simp only [readBody, bind_eq_ok_iff] at read
  obtain ⟨-, -, feature, -, -, -, geometry, -, source, -, block, -, read⟩ := read
  cases block with
  | none =>
      obtain ⟨predicate, absent, read⟩ := bind_eq_ok_iff.1 read
      cases absent
      obtain ⟨distance, made⟩ := exists_make_of_buffer read
      exact lawful_of_make (by simp) made
  | some filter =>
      obtain ⟨predicate, present, read⟩ := bind_eq_ok_iff.1 read
      obtain ⟨p, parsed, rfl⟩ := map_eq_ok_iff.1 present
      obtain ⟨distance, made⟩ := exists_make_of_buffer read
      refine lawful_of_make (fun other same => ?_) made
      cases same
      exact Predicate.lawful_of_ofFilter parsed

theorem lawful_of_read {e : Element} {r : Request} (read : read e = .ok r) : r.Lawful := by
  obtain ⟨name, -, located⟩ := bind_eq_ok_iff.1 read
  exact lawful_of_readBody (CheckError.locate_eq_ok_iff.1 located)

theorem lawful_of_readAll {elements : List Element} {requests : List Request}
    (read : readAll elements = .ok requests) : ∀ r ∈ requests, r.Lawful := by
  induction elements generalizing requests with
  | nil =>
      cases read
      simp
  | cons e rest ih =>
      rw [readAll] at read
      split at read
      · cases read
      · obtain ⟨r, first, read⟩ := bind_eq_ok_iff.1 read
        obtain ⟨others, later, done⟩ := bind_eq_ok_iff.1 read
        cases done
        exact List.forall_mem_cons.2 ⟨lawful_of_read first, ih later⟩

end Request

/-! ## Rules for checks -/

/-- The four texts of the class of issues, with something in each and no blanks around it. -/
structure IssueClass.Lawful (issueClass : IssueClass) : Prop where
  id : IsField issueClass.id
  item : IsField issueClass.item
  level : IsField issueClass.level
  title : IsField issueClass.title

theorem IssueClass.lawful_of_read {e : Element} {issueClass : IssueClass}
    (read : IssueClass.read e = .ok issueClass) : issueClass.Lawful := by
  simp only [IssueClass.read, bind_eq_ok_iff] at read
  obtain ⟨id, first, item, second, level, third, title, fourth, done⟩ := read
  cases done
  exact ⟨isField_of_fieldOf first, isField_of_fieldOf second, isField_of_fieldOf third,
    isField_of_fieldOf fourth⟩

namespace Check

/-- A check that keeps all the rules of construction. -/
structure Lawful (c : Check) : Prop where
  filled : c.requests ≠ []
  distinct : (c.requests.map (·.name)).Nodup
  unshadowed : ∀ r ∈ c.requests, ∀ source : Builtin, r.name ≠ source.name
  requests : ∀ r ∈ c.requests, r.Lawful
  issueClass : c.issueClass.Lawful

/-- **Every check that is read from a document keeps all the rules**, whatever reads the text as
markup. -/
theorem read_gives_lawful_check {reader : Markup.Reader} {text : String} {c : Check}
    (read : read reader text = .ok c) : c.Lawful := by
  unfold Check.read at read
  split at read
  · cases read
  · rename_i top parsed
    simp only [ofElement, bind_eq_ok_iff] at read
    obtain ⟨block, -, issueClass, classified, requests, -, declared, listed, made⟩ := read
    obtain ⟨rfl, rfl⟩ := make_eq_ok_iff.1 made
    refine ⟨by simp [Check.requests], c.distinct, fun r member source same => ?_,
      Request.lawful_of_readAll listed, IssueClass.lawful_of_read classified⟩
    have free := c.unshadowed r member
    rw [same, Builtin.find?_name] at free
    cases free

namespace Example

/-- A document with a buffer and with a filter of nested connectives, in pieces. -/
def fenced : List String := [
  "<check><class><id>1</id><item>9</item>",
  "<level>2</level><title> near </title></class>",
  "<requests><request><name>zone</name>",
  "<obj>way</obj><geom>polygon</geom>",
  "<from>ways_bbox</from><buffer> -1.5e2 </buffer></request>",
  "<request><name>hit</name><obj>node</obj>",
  "<geom>point</geom><from>nodes</from>",
  "<filter><and><key_value>a = b</key_value>",
  "<or><intersects>zone</intersects></or></and>",
  "</filter></request></requests></check>"]

theorem read_fenced :
    ((Check.read Element.parse (String.join fenced)).toOption.map fun c => c.requests.map (·.name)) =
      some ["zone", "hit"] := by
  rw [Check.read, Element.parse, String.toList_join]
  decide +kernel

end Example

theorem fenced_gives_lawful_check :
    ∃ c, Check.read Element.parse (String.join Example.fenced) = .ok c ∧
      c.requests.map (·.name) = ["zone", "hit"] ∧ c.Lawful := by
  have names := Example.read_fenced
  cases read : Check.read Element.parse (String.join Example.fenced) with
  | error e =>
      rw [read] at names
      cases names
  | ok c =>
      rw [read] at names
      exact ⟨c, rfl, Option.some.inj names, read_gives_lawful_check read⟩

end Check

end MapAudit
