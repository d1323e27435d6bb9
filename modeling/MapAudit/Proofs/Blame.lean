import MapAudit.Proofs.Fault

/-!
# What the refusal of a request concerns

Why a request is not read, told from its element.  `Request.Refused` lists the reasons, each
of which counts only where those before it do not hold: a field, a kind, a block, the first
faulty predicate of the filter, or what the parts are together.  Some refusals concern the
request where they arise, others concern none until the reader locates them; whichever it
is, once the request has a name its refusal concerns it.
-/

namespace MapAudit

set_option autoImplicit false

open Markup (Element)

/-! ## Kinds and blocks -/

section Kinds

variable {text : String} {err : CheckError}

theorem FeatureKind.read_eq_ok_iff {kind : FeatureKind} : read text = .ok kind ↔ text = kind.name := by
  constructor
  · intro known
    unfold read ofName? at known
    split_ifs at known <;> cases known <;> assumption
  · rintro rfl
    rw [read, ofName?_name]

theorem FeatureKind.read_eq_error_iff :
    read text = .error err ↔
      (∀ kind : FeatureKind, text ≠ kind.name) ∧ err = .malformedDocument (.unknownFeature text) := by
  simp only [ne_eq, ← read_eq_ok_iff]
  unfold read
  cases ofName? text <;> simp [eq_comm]

theorem GeometryKind.read_eq_ok_iff {kind : GeometryKind} :
    read text = .ok kind ↔ text = kind.name := by
  constructor
  · intro known
    unfold read ofName? at known
    split_ifs at known <;> cases known <;> assumption
  · rintro rfl
    rw [read, ofName?_name]

theorem GeometryKind.read_eq_error_iff :
    read text = .error err ↔
      (∀ kind : GeometryKind, text ≠ kind.name) ∧
        err = .malformedDocument (.unknownGeometry text) := by
  simp only [ne_eq, ← read_eq_ok_iff]
  unfold read
  cases ofName? text <;> simp [eq_comm]

end Kinds

section Blocks

variable {e : Element} {name tag : String} {err : CheckError}

theorem blockOf_eq_ok_iff {block : Element} :
    blockOf e name tag = .ok (some block) ↔ e.withTag tag = [block] := by
  unfold blockOf
  split <;> simp_all

theorem blockOf_eq_error_iff :
    blockOf e name tag = .error err ↔
      1 < (e.withTag tag).length ∧ err = .malformedRequest name (.repeatedBlock tag) := by
  unfold blockOf
  split
  · simp [*]
  · simp [*]
  · rename_i empty single
    have several : 1 < (e.withTag tag).length := by
      cases found : e.withTag tag with
      | nil => exact absurd found empty
      | cons first rest =>
          cases rest with
          | nil => exact absurd found (single first)
          | cons _ _ => simp
    simp [several, eq_comm]

/-- What is read from a block that may be absent is refused where the block is repeated or
is refused itself. -/
theorem block_eq_error_iff {α : Type} {read : Element → Except CheckError α} :
    (do match ← blockOf e name tag with
        | some block => some <$> read block
        | none => return none) = .error err ↔
      (1 < (e.withTag tag).length ∧ err = .malformedRequest name (.repeatedBlock tag)) ∨
        ∃ block, e.withTag tag = [block] ∧ read block = .error err := by
  rw [bind_eq_error_iff, blockOf_eq_error_iff]
  refine or_congr_right ⟨?_, ?_⟩
  · rintro ⟨block, found, refused⟩
    cases block with
    | none => cases refused
    | some block => exact ⟨block, blockOf_eq_ok_iff.1 found, map_eq_error_iff.1 refused⟩
  · rintro ⟨block, found, refused⟩
    exact ⟨some block, blockOf_eq_ok_iff.2 found, map_eq_error_iff.2 refused⟩

end Blocks

/-! ## Requests -/

/-- Inside a request a refusal that concerns no other one concerns it. -/
theorem CheckError.within_of_own {err : CheckError} {name : String}
    (own : err.request = none ∨ err.request = some name) :
    err.within name = ⟨err.cause, some name⟩ := by
  obtain ⟨cause, request⟩ := err
  rcases own with rfl | rfl <;> rfl

namespace Request

theorem predicateOf_eq_error_iff {e : Element} {name : String} {err : CheckError} :
    predicateOf e name = .error err ↔
      (1 < (e.withTag "filter").length ∧ err = .malformedRequest name (.repeatedBlock "filter")) ∨
        ∃ filter, e.withTag "filter" = [filter] ∧ Predicate.FilterFault filter err := by
  simp only [← Predicate.ofFilter_eq_error_iff]
  exact block_eq_error_iff

theorem distanceOf_eq_error_iff {e : Element} {name : String} {err : CheckError} :
    distanceOf e name = .error err ↔
      (1 < (e.withTag "buffer").length ∧ err = .malformedRequest name (.repeatedBlock "buffer")) ∨
        ∃ buffer, e.withTag "buffer" = [buffer] ∧ (∀ text, ¬ buffer.Holds text) ∧
          err = .malformedDocument (.emptyElement "buffer") := by
  simp only [← textOf_eq_error_iff]
  exact block_eq_error_iff

/-- A request that is read as far as its kinds and its source. -/
structure Declares (e : Element) (feature : FeatureKind) (geometry : GeometryKind)
    (source : String) : Prop where
  obj : e.Field "obj" feature.name
  geom : e.Field "geom" geometry.name
  source : e.Field "from" source

/-- Why a request is refused once its name is known.  A reason counts only where those
before it do not hold. -/
inductive Refused (e : Element) (name : String) : CheckError.Cause → Prop where
  | obj {cause : CheckError.Cause} (fault : e.FieldFault "obj" cause) : Refused e name cause
  | feature {text : String} (obj : e.Field "obj" text)
      (unknown : ∀ kind : FeatureKind, text ≠ kind.name) :
      Refused e name (.malformedDocument (.unknownFeature text))
  | geom {feature : FeatureKind} {cause : CheckError.Cause} (obj : e.Field "obj" feature.name)
      (fault : e.FieldFault "geom" cause) : Refused e name cause
  | geometry {feature : FeatureKind} {text : String} (obj : e.Field "obj" feature.name)
      (geom : e.Field "geom" text) (unknown : ∀ kind : GeometryKind, text ≠ kind.name) :
      Refused e name (.malformedDocument (.unknownGeometry text))
  | source {feature : FeatureKind} {geometry : GeometryKind} {cause : CheckError.Cause}
      (obj : e.Field "obj" feature.name) (geom : e.Field "geom" geometry.name)
      (fault : e.FieldFault "from" cause) : Refused e name cause
  | filters {feature : FeatureKind} {geometry : GeometryKind} {source : String}
      (declares : Declares e feature geometry source)
      (several : 1 < (e.withTag "filter").length) :
      Refused e name (.malformedRequest (.repeatedBlock "filter"))
  /-- Among the faults of the filter is that of the first faulty predicate. -/
  | filter {feature : FeatureKind} {geometry : GeometryKind} {source : String}
      {filter : Element} {err : CheckError} (declares : Declares e feature geometry source)
      (only : e.withTag "filter" = [filter]) (fault : Predicate.FilterFault filter err) :
      Refused e name err.cause
  | buffers {feature : FeatureKind} {geometry : GeometryKind} {source : String}
      {predicate : Option Predicate} (declares : Declares e feature geometry source)
      (filtered : predicateOf e name = .ok predicate)
      (several : 1 < (e.withTag "buffer").length) :
      Refused e name (.malformedRequest (.repeatedBlock "buffer"))
  | buffer {feature : FeatureKind} {geometry : GeometryKind} {source : String}
      {predicate : Option Predicate} {buffer : Element}
      (declares : Declares e feature geometry source)
      (filtered : predicateOf e name = .ok predicate) (only : e.withTag "buffer" = [buffer])
      (blank : ∀ text, ¬ buffer.Holds text) :
      Refused e name (.malformedDocument (.emptyElement "buffer"))
  /-- All is there, but no request is made from it. -/
  | made {feature : FeatureKind} {geometry : GeometryKind} {source : String}
      {predicate : Option Predicate} {distance : Option String} {err : CheckError}
      (declares : Declares e feature geometry source)
      (filtered : predicateOf e name = .ok predicate) (buffered : distanceOf e name = .ok distance)
      (refused : make name feature geometry source predicate distance = .error err) :
      Refused e name err.cause

section Body

variable {e : Element} {name : String} {err : CheckError}

/-- A refusal that is made to concern a request does so. -/
theorem request_of_mapError {α : Type} {x : Except CheckError α}
    (refused : x.mapError (·.concerning name) = .error err) : err.request = some name := by
  cases x with
  | error inner => cases refused; rfl
  | ok a => cases refused

theorem request_of_makeOperation {predicate : Option Predicate} {distance : Option String}
    (refused : makeOperation name predicate distance = .error err) :
    err.request = some name := by
  cases predicate with
  | none =>
      cases distance with
      | none => cases refused; rfl
      | some d =>
          exact request_of_mapError (bind_pure_eq_error_iff.1 refused)
  | some p =>
      cases distance with
      | some d => cases refused; rfl
      | none =>
          rw [makeOperation, makeFilter] at refused
          split at refused
          · cases refused; rfl
          · cases refused

/-- What a request is refused for when it is made concerns it, or nothing so far. -/
theorem request_of_make {feature : FeatureKind} {geometry : GeometryKind} {source : String}
    {predicate : Option Predicate} {distance : Option String}
    (refused : make name feature geometry source predicate distance = .error err) :
    err.request = none ∨ err.request = some name := by
  rcases bind_eq_error_iff.1 refused with bad | ⟨-, -, refused⟩
  · obtain ⟨-, rfl⟩ := checkIdentifier_eq_error_iff.1 bad
    exact .inl rfl
  rcases bind_eq_error_iff.1 refused with bad | ⟨-, -, refused⟩
  · exact .inr (request_of_mapError bad)
  split at refused
  · cases refused
    exact .inl rfl
  · exact .inr (request_of_makeOperation (bind_pure_eq_error_iff.1 refused))

theorem readBody_of_declares {feature : FeatureKind} {geometry : GeometryKind} {source : String}
    (declares : Declares e feature geometry source) :
    readBody e name = (do
      let predicate ← predicateOf e name
      let distance ← distanceOf e name
      make name feature geometry source predicate distance) := by
  rw [readBody_eq, fieldOf_eq_ok_iff.2 declares.obj, fieldOf_eq_ok_iff.2 declares.geom,
    fieldOf_eq_ok_iff.2 declares.source]
  show (FeatureKind.read _ >>= fun _ => GeometryKind.read _ >>= _) = _
  rw [FeatureKind.read_eq_ok_iff.2 rfl, GeometryKind.read_eq_ok_iff.2 rfl]
  rfl

/-- Every refusal has one of the reasons, and concerns no other request. -/
theorem refused_of_readBody (refused : readBody e name = .error err) :
    (err.request = none ∨ err.request = some name) ∧ Refused e name err.cause := by
  rw [readBody_eq] at refused
  rcases bind_eq_error_iff.1 refused with bad | ⟨feature, known, refused⟩
  · rcases bind_eq_error_iff.1 bad with field | ⟨text, obj, bad⟩
    · obtain ⟨unlocated, fault⟩ := fieldOf_eq_error_iff.1 field
      exact ⟨.inl unlocated, .obj fault⟩
    · obtain ⟨unknown, rfl⟩ := FeatureKind.read_eq_error_iff.1 bad
      exact ⟨.inl rfl, .feature (fieldOf_eq_ok_iff.1 obj) unknown⟩
  have obj : e.Field "obj" feature.name := by
    obtain ⟨text, field, named⟩ := bind_eq_ok_iff.1 known
    exact FeatureKind.read_eq_ok_iff.1 named ▸ fieldOf_eq_ok_iff.1 field
  rcases bind_eq_error_iff.1 refused with bad | ⟨geometry, known, refused⟩
  · rcases bind_eq_error_iff.1 bad with field | ⟨text, geom, bad⟩
    · obtain ⟨unlocated, fault⟩ := fieldOf_eq_error_iff.1 field
      exact ⟨.inl unlocated, .geom obj fault⟩
    · obtain ⟨unknown, rfl⟩ := GeometryKind.read_eq_error_iff.1 bad
      exact ⟨.inl rfl, .geometry obj (fieldOf_eq_ok_iff.1 geom) unknown⟩
  have geom : e.Field "geom" geometry.name := by
    obtain ⟨text, field, named⟩ := bind_eq_ok_iff.1 known
    exact GeometryKind.read_eq_ok_iff.1 named ▸ fieldOf_eq_ok_iff.1 field
  rcases bind_eq_error_iff.1 refused with field | ⟨source, known, refused⟩
  · obtain ⟨unlocated, fault⟩ := fieldOf_eq_error_iff.1 field
    exact ⟨.inl unlocated, .source obj geom fault⟩
  have declares : Declares e feature geometry source := ⟨obj, geom, fieldOf_eq_ok_iff.1 known⟩
  rcases bind_eq_error_iff.1 refused with bad | ⟨predicate, filtered, refused⟩
  · rcases predicateOf_eq_error_iff.1 bad with ⟨several, rfl⟩ | ⟨filter, only, fault⟩
    · exact ⟨.inr rfl, .filters declares several⟩
    · exact ⟨.inl fault.request, .filter declares only fault⟩
  rcases bind_eq_error_iff.1 refused with bad | ⟨distance, buffered, refused⟩
  · rcases distanceOf_eq_error_iff.1 bad with ⟨several, rfl⟩ | ⟨buffer, only, blank, rfl⟩
    · exact ⟨.inr rfl, .buffers declares filtered several⟩
    · exact ⟨.inl rfl, .buffer declares filtered only blank⟩
  · exact ⟨request_of_make refused, .made declares filtered buffered refused⟩

/-- Where there is a reason the request is refused for it. -/
theorem readBody_of_refused {cause : CheckError.Cause} (refused : Refused e name cause) :
    ∃ request, readBody e name = .error ⟨cause, request⟩ := by
  have unread : ∀ {tag : String} {cause : CheckError.Cause}, e.FieldFault tag cause →
      fieldOf e tag = .error ⟨cause, none⟩ := fun fault => fieldOf_eq_error_iff.2 ⟨rfl, fault⟩
  cases refused with
  | obj fault =>
      rw [readBody_eq, unread fault]
      exact ⟨none, rfl⟩
  | feature obj unknown =>
      rw [readBody_eq, fieldOf_eq_ok_iff.2 obj]
      refine ⟨none, bind_eq_error_iff.2 (.inl ?_)⟩
      exact FeatureKind.read_eq_error_iff.2 ⟨unknown, rfl⟩
  | geom obj fault =>
      rw [readBody_eq, fieldOf_eq_ok_iff.2 obj, unread fault]
      refine ⟨none, bind_eq_error_iff.2 (.inr ⟨_, FeatureKind.read_eq_ok_iff.2 rfl, rfl⟩)⟩
  | geometry obj geom unknown =>
      rw [readBody_eq, fieldOf_eq_ok_iff.2 obj, fieldOf_eq_ok_iff.2 geom]
      refine ⟨none, bind_eq_error_iff.2 (.inr ⟨_, FeatureKind.read_eq_ok_iff.2 rfl, ?_⟩)⟩
      refine bind_eq_error_iff.2 (.inl ?_)
      exact GeometryKind.read_eq_error_iff.2 ⟨unknown, rfl⟩
  | source obj geom fault =>
      rw [readBody_eq, fieldOf_eq_ok_iff.2 obj, fieldOf_eq_ok_iff.2 geom, unread fault]
      refine ⟨none, bind_eq_error_iff.2 (.inr ⟨_, FeatureKind.read_eq_ok_iff.2 rfl, ?_⟩)⟩
      exact bind_eq_error_iff.2 (.inr ⟨_, GeometryKind.read_eq_ok_iff.2 rfl, rfl⟩)
  | filters declares several =>
      rw [readBody_of_declares declares, predicateOf_eq_error_iff.2 (.inl ⟨several, rfl⟩)]
      exact ⟨some name, rfl⟩
  | @filter _ _ _ filter err declares only fault =>
      rw [readBody_of_declares declares, predicateOf_eq_error_iff.2 (.inr ⟨filter, only, fault⟩)]
      exact ⟨err.request, rfl⟩
  | buffers declares filtered several =>
      rw [readBody_of_declares declares, filtered,
        distanceOf_eq_error_iff.2 (.inl ⟨several, rfl⟩)]
      exact ⟨some name, rfl⟩
  | buffer declares filtered only blank =>
      rw [readBody_of_declares declares, filtered,
        distanceOf_eq_error_iff.2 (.inr ⟨_, only, blank, rfl⟩)]
      exact ⟨none, rfl⟩
  | @made _ _ _ _ _ err declares filtered buffered refused =>
      rw [readBody_of_declares declares, filtered, buffered]
      exact ⟨err.request, refused⟩

end Body

/-- A request with a name is refused for a reason, and the refusal concerns it. -/
theorem read_eq_error_iff_of_name {e : Element} {name : String} (named : e.Field "name" name)
    {err : CheckError} :
    read e = .error err ↔ err.request = some name ∧ Refused e name err.cause := by
  have reads : read e = CheckError.locate name (readBody e name) := by
    rw [read, fieldOf_eq_ok_iff.2 named]
    rfl
  rw [reads, CheckError.locate_eq_error_iff]
  constructor
  · rintro ⟨inner, refused, rfl⟩
    obtain ⟨own, reason⟩ := refused_of_readBody refused
    rw [CheckError.within_of_own own]
    exact ⟨rfl, reason⟩
  · rintro ⟨located, reason⟩
    obtain ⟨cause, request⟩ := err
    cases located
    obtain ⟨request, refused⟩ := readBody_of_refused reason
    exact ⟨⟨cause, request⟩, refused, CheckError.within_of_own (refused_of_readBody refused).1⟩

/-- A request without a name is refused, and the refusal concerns no request. -/
theorem read_eq_error_iff_of_nameless {e : Element} (nameless : ∀ name, ¬ e.Field "name" name)
    {err : CheckError} :
    read e = .error err ↔ err.request = none ∧ e.FieldFault "name" err.cause := by
  rw [← fieldOf_eq_error_iff, read, bind_eq_error_iff]
  constructor
  · rintro (missing | ⟨name, found, -⟩)
    · exact missing
    · exact absurd (fieldOf_eq_ok_iff.1 found) (nameless name)
  · exact .inl

/-- **Every refusal of a request with a name concerns that request.**  It is refused for
exactly the first of the reasons, which for the predicates of its filter is the fault of the
first faulty one in document order.  Only a request whose name is missing or empty is
refused, as it then always is, with a refusal that concerns no request. -/
theorem refusals_concern_the_request (e : Element) :
    (∀ name, e.Field "name" name → ∀ err,
      read e = .error err ↔ err.request = some name ∧ Refused e name err.cause) ∧
    ((∀ name, ¬ e.Field "name" name) →
      ∃ cause, e.FieldFault "name" cause ∧ read e = .error ⟨cause, none⟩) ∧
    ∀ err, read e = .error err → (err.request = none ↔ ∀ name, ¬ e.Field "name" name) := by
  refine ⟨fun name named err => read_eq_error_iff_of_name named, fun nameless => ?_,
    fun err refused => ⟨fun unlocated name named => ?_, fun nameless => ?_⟩⟩
  · cases found : fieldOf e "name" with
    | ok name => exact absurd (fieldOf_eq_ok_iff.1 found) (nameless name)
    | error err =>
        obtain ⟨unlocated, fault⟩ := fieldOf_eq_error_iff.1 found
        exact ⟨err.cause, fault, (read_eq_error_iff_of_nameless nameless).2 ⟨rfl, fault⟩⟩
  · have located := ((read_eq_error_iff_of_name named).1 refused).1
    rw [unlocated] at located
    cases located
  · exact ((read_eq_error_iff_of_nameless nameless).1 refused).1

namespace Example

/-- A request whose filter holds a sound predicate, an empty `or` and an unknown element. -/
def quarrel : Element :=
  ⟨"request", [.element "filter" [.element "and" [.element "has_tag" [.text "k"],
      .element "or" [.comment], .element "near" []]],
    .element "from" [.text "ways"], .element "geom" [.text "polygon"],
    .element "obj" [.text "way"], .element "name" [.text " a "]]⟩

end Example

theorem quarrel_concerns_its_request :
    Example.quarrel.Field "name" "a" ∧
      read Example.quarrel = .error ⟨.malformedDocument (.emptyConnective .or), some "a"⟩ ∧
      Refused Example.quarrel "a" (.malformedDocument (.emptyConnective .or)) ∧
      ∃ cause, read ⟨"request", []⟩ = .error ⟨cause, none⟩ := by
  have named : Example.quarrel.Field "name" "a" :=
    ⟨⟨"name", [.text " a "]⟩, rfl, by decide, " a ", rfl, by decide +kernel⟩
  have refused : read Example.quarrel =
      .error ⟨.malformedDocument (.emptyConnective .or), some "a"⟩ := by rfl
  obtain ⟨reasons, -, -⟩ := refusals_concern_the_request Example.quarrel
  obtain ⟨-, nameless, -⟩ := refusals_concern_the_request ⟨"request", []⟩
  obtain ⟨cause, -, bare⟩ := nameless (by rintro name ⟨child, found, -⟩; cases found)
  exact ⟨named, refused, ((reasons "a" named _).1 refused).2, cause, bare⟩

end Request

end MapAudit
