import MapAudit.Files.Basic
import MapAudit.Markup.Fault
import MapAudit.Text.Cut

/-!
# Why a check is refused

`CheckError.Cause` lists every reason to refuse a check document, `CheckError`
adds the request it concerns.  The wording of all of them is
`CheckError.Cause.message`, the stable code `CheckError.Cause.code`.
-/

namespace MapAudit

set_option autoImplicit false

/-- How several predicates are joined. -/
inductive Connective where
  | and
  | or
  deriving DecidableEq, Repr

def Connective.name : Connective → String
  | .and => "and"
  | .or => "or"

/-- The kinds of text that must have a set form. -/
inductive LiteralKind where
  | identifier
  | distance
  | tagKey
  | tagValue
  | requestName
  | intersectsTarget
  /-- A kind described in words. -/
  | named (text : String)
  deriving DecidableEq, Repr

def LiteralKind.name : LiteralKind → String
  | .identifier => "identifier"
  | .distance => "buffer distance"
  | .tagKey => "tag key"
  | .tagValue => "tag value"
  | .requestName => "request name"
  | .intersectsTarget => "intersects target"
  | .named text => text

/-- What is wrong with a document as a whole or with one of its elements. -/
inductive DocumentFault where
  /-- The text is no markup document. -/
  | notMarkup (fault : Markup.Fault)
  /-- An element lacks a child it must have. -/
  | missingChild (parent child : String)
  /-- An element holds no text. -/
  | emptyElement (tag : String)
  /-- An element that is no request stands among the requests. -/
  | strayElement (tag : String)
  | unknownFeature (text : String)
  | unknownGeometry (text : String)
  | emptyFilter
  | crowdedFilter
  | emptyConnective (connective : Connective)
  | noRequests (check : String)
  | unreadableFile (fault : FileFault)
  | unreadableFolder (folder : String) (fault : FileFault)
  /-- An entry of the folder is out of reach. -/
  | unreadableEntry (fault : FileFault)
  /-- A fault described in words. -/
  | described (text : String)
  deriving DecidableEq, Repr

def DocumentFault.message : DocumentFault → String
  | .notMarkup fault => "Invalid XML: " ++ fault.message
  | .missingChild parent child => "<" ++ parent ++ "> is missing <" ++ child ++ ">"
  | .emptyElement tag => "<" ++ tag ++ "> is empty"
  | .strayElement tag => "Unexpected <" ++ tag ++ "> in <requests>"
  | .unknownFeature text => "Unknown obj '" ++ text ++ "', expected node, way or relation"
  | .unknownGeometry text =>
      "Unknown geom '" ++ text ++ "', expected point, linestring, polygon or multipolygon"
  | .emptyFilter => "<filter> holds no predicate"
  | .crowdedFilter => "<filter> holds more than one predicate"
  | .emptyConnective connective => "'" ++ connective.name ++ "' needs at least one child"
  | .noRequests check => "Check '" ++ check ++ "' declares no requests"
  | .unreadableFile fault => "Failed to read file: " ++ fault.message
  | .unreadableFolder folder fault =>
      "Failed to read checks directory " ++ folder ++ ": " ++ fault.message
  | .unreadableEntry fault => "Failed to read directory entry: " ++ fault.message
  | .described text => text

/-- What is wrong with the make-up of one request. -/
inductive RequestFault where
  | filterAndBuffer
  | neitherFilterNorBuffer
  /-- A block that may occur once occurs again. -/
  | repeatedBlock (tag : String)
  /-- A fault described in words. -/
  | described (text : String)
  deriving DecidableEq, Repr

def RequestFault.message : RequestFault → String
  | .filterAndBuffer => "Request has both a filter and a buffer"
  | .neitherFilterNorBuffer => "Request has neither a filter nor a buffer"
  | .repeatedBlock tag => "Request has more than one <" ++ tag ++ ">"
  | .described text => text

namespace CheckError

/-- Why a check is refused. -/
inductive Cause where
  | malformedRequest (fault : RequestFault)
  | unknownPredicate (tag : String)
  | unparseableKeyValue (text : String)
  /-- A source or intersects target that is neither built in nor declared. -/
  | unknownReference (name : String)
  /-- `repeated` is reached again along `path`. -/
  | cyclicDependency (path : List String) (repeated : String)
  /-- The final request is a buffer. -/
  | invalidSink (name : String)
  | malformedDocument (fault : DocumentFault)
  | duplicateRequest (name : String)
  | duplicateCheck (id : String)
  | invalidLiteral (kind : LiteralKind) (text : String)
  deriving DecidableEq, Repr

/-- A dependency path written as a chain that ends in the repeated name. -/
def chain (path : List String) (repeated : String) : String :=
  let walked := Text.joinWith " -> " path
  if walked = "" then repeated else walked ++ " -> " ++ repeated

def Cause.message : Cause → String
  | .malformedRequest fault => fault.message
  | .unknownPredicate tag => "Unknown predicate element '" ++ tag ++ "'"
  | .unparseableKeyValue text => "Cannot split '" ++ text ++ "' on '!=' or '='"
  | .unknownReference name => "'" ++ name ++ "' is neither a built-in source nor a declared request"
  | .cyclicDependency path repeated => "Dependency cycle: " ++ chain path repeated
  | .invalidSink name => "Buffer request '" ++ name ++ "' cannot be the final request"
  | .malformedDocument fault => fault.message
  | .duplicateRequest name => "Request name '" ++ name ++ "' is already taken"
  | .duplicateCheck id => "Check '" ++ id ++ "' is already loaded"
  | .invalidLiteral kind text => "Invalid " ++ kind.name ++ ": '" ++ text ++ "'"

def Cause.code : Cause → String
  | .malformedRequest _ => "GEOCHECK_MALFORMED_STAGE"
  | .unknownPredicate _ => "GEOCHECK_UNKNOWN_PREDICATE_KIND"
  | .unparseableKeyValue _ => "GEOCHECK_UNPARSEABLE_KEY_VALUE"
  | .unknownReference _ => "GEOCHECK_UNKNOWN_STAGE_REFERENCE"
  | .cyclicDependency _ _ => "GEOCHECK_CYCLIC_DEPENDENCY"
  | .invalidSink _ => "GEOCHECK_INVALID_SINK"
  | .malformedDocument _ => "GEOCHECK_MALFORMED_DOCUMENT"
  | .duplicateRequest _ => "GEOCHECK_DUPLICATE_STAGE"
  | .duplicateCheck _ => "GEOCHECK_DUPLICATE_CHECK"
  | .invalidLiteral _ _ => "GEOCHECK_INVALID_LITERAL"

/-- What every refusal does to the check it concerns. -/
def severity : String := "REJECT"

end CheckError

/-- A refusal, with the request it concerns where one is known. -/
structure CheckError where
  cause : CheckError.Cause
  request : Option String := none
  deriving DecidableEq, Repr

namespace CheckError

/-- The refusal, now concerning `name`. -/
def concerning (e : CheckError) (name : String) : CheckError :=
  { e with request := some name }

/-- The refusal, concerning `name` unless a request is already known. -/
def within (e : CheckError) (name : String) : CheckError :=
  match e.request with
  | some _ => e
  | none => e.concerning name

def code (e : CheckError) : String := e.cause.code

def message (e : CheckError) : String := e.cause.message

/-- The refusal on one line: severity, code, message and request. -/
def display (e : CheckError) : String :=
  "[" ++ severity ++ "] " ++ e.code ++ ": " ++ e.message ++
    match e.request with
    | some name => " [request " ++ name ++ "]"
    | none => ""

/-! ## Refusals that name their request -/

def malformedRequest (name : String) (fault : RequestFault) : CheckError :=
  ⟨.malformedRequest fault, some name⟩

def cyclicDependency (path : List String) (repeated : String) : CheckError :=
  ⟨.cyclicDependency path repeated, some repeated⟩

def invalidSink (name : String) : CheckError :=
  ⟨.invalidSink name, some name⟩

def duplicateRequest (name : String) : CheckError :=
  ⟨.duplicateRequest name, some name⟩

/-! ## Refusals that do not -/

def malformedDocument (fault : DocumentFault) : CheckError :=
  ⟨.malformedDocument fault, none⟩

def unknownPredicate (tag : String) : CheckError :=
  ⟨.unknownPredicate tag, none⟩

def unparseableKeyValue (text : String) : CheckError :=
  ⟨.unparseableKeyValue text, none⟩

def unknownReference (name : String) : CheckError :=
  ⟨.unknownReference name, none⟩

def duplicateCheck (id : String) : CheckError :=
  ⟨.duplicateCheck id, none⟩

def invalidLiteral (kind : LiteralKind) (text : String) : CheckError :=
  ⟨.invalidLiteral kind text, none⟩

@[simp] theorem cause_within (e : CheckError) (name : String) : (e.within name).cause = e.cause := by
  unfold within
  split <;> rfl

/-- The outcome of a step inside request `name`: a refusal that concerns no
request yet concerns this one. -/
def locate {α : Type} (name : String) (outcome : Except CheckError α) : Except CheckError α :=
  outcome.mapError (·.within name)

end CheckError

end MapAudit
