import MapAudit.Check.Document
import MapAudit.Files.Path
import MapAudit.Log.Line
import MapAudit.Pipeline

/-!
# Catalogues

A catalogue holds the checks loaded from the documents of a folder, and the
documents it refused.  Documents are taken in the byte order of their names.  One
that cannot be read or compiled, or whose id is taken, is refused on its own and
leaves the rest untouched.

Every operation tells what happened as a list of log entries.  What reads a text as
markup is left open: it is the `reader` of an operation.
-/

namespace MapAudit

set_option autoImplicit false

/-- A document that was refused, and why. -/
structure Rejected where
  origin : String
  error : CheckError
  deriving DecidableEq, Repr

structure Catalogue where
  /-- The folder that is scanned. -/
  folder : Bytes
  /-- The extension of check documents, without the dot. -/
  extension : String := "xml"
  /-- The loaded checks, in the order of loading. -/
  checks : List Pipeline := []
  /-- Where they come from, one origin for each. -/
  origins : List String := []
  /-- The refused documents, in the order of loading. -/
  rejected : List Rejected := []
  deriving Repr

def Pipeline.ofDocument (reader : Markup.Reader) (text : String) :
    Except CheckError Pipeline := do
  let check ← Check.read reader text
  check.compile

/-- The names of the files in a folder.  An entry that is out of reach is an error, the
first of them if there are more. -/
def Files.names (files : Files) (folder : Bytes) : Except CheckError (List Bytes) :=
  match files.list folder with
  | .error fault => .error (.malformedDocument (.unreadableFolder (Text.ofBytes folder) fault))
  | .ok entries =>
      match entries.mapM id with
      | .error fault => .error (.malformedDocument (.unreadableEntry fault))
      | .ok names => .ok names

namespace Catalogue

/-! ## Looking up -/

def get? (c : Catalogue) (id : String) : Option Pipeline :=
  c.checks.find? fun p => p.id = id

/-- The origin of the check of an id: the one that stands in its place. -/
def origin? (c : Catalogue) (id : String) : Option String :=
  (c.checks.findIdx? fun p => p.id = id).bind fun place => c.origins[place]?

def rejection? (c : Catalogue) (origin : String) : Option CheckError :=
  (c.rejected.find? fun entry => entry.origin = origin).map (·.error)

/-! ## Loading -/

/-- What an operation leaves: its outcome, the catalogue, and what happened. -/
structure Step (α : Type) where
  outcome : Except CheckError α
  catalogue : Catalogue
  log : List Log.Entry

def reject (c : Catalogue) (origin : String) (e : CheckError) : Step Pipeline where
  outcome := .error e
  catalogue := { c with rejected := c.rejected ++ [⟨origin, e⟩] }
  log := [Log.Event.checkRejected.entry
    ([("origin", origin), ("code", e.code), ("reason", e.message)] ++
      (e.request.map fun name => ("stage", name)).toList)]

/-- Record a check, and its origin beside it. -/
def add (c : Catalogue) (origin : String) (p : Pipeline) : Step Pipeline where
  outcome := .ok p
  catalogue := { c with checks := c.checks ++ [p], origins := c.origins ++ [origin] }
  log := [
    Log.Event.checkCompiled.entry
      [("check", p.id), ("stages", toString p.plan.length),
       ("statements", toString p.statements.length)],
    Log.Event.checkLoaded.entry [("check", p.id), ("origin", origin)]]

def clear (c : Catalogue) : Catalogue :=
  { c with checks := [], origins := [], rejected := [] }

/-- The paths of the documents among the files of the folder, in the byte order of
their names. -/
def documents (c : Catalogue) (names : List Bytes) : List Bytes :=
  ((names.filter fun name => Path.extension? name = some (Text.bytes c.extension)).mergeSort
    fun a b => decide (a ≤ b)).map (Path.join c.folder)

section Reading

variable (reader : Markup.Reader)

/-- Load a document that is at hand.  Its id must be free. -/
def loadText (c : Catalogue) (origin text : String) : Step Pipeline :=
  match Pipeline.ofDocument reader text with
  | .error e => c.reject origin e
  | .ok p =>
      if (c.get? p.id).isSome then c.reject origin (.duplicateCheck p.id)
      else c.add origin p

/-- Load the document in a file.  Its origin is its path, as far as that is text. -/
def loadFile (files : Files) (c : Catalogue) (path : Bytes) : Step Pipeline :=
  match files.read path with
  | .ok text => c.loadText reader (Text.ofBytes path) text
  | .error fault => c.reject (Text.ofBytes path) (.malformedDocument (.unreadableFile fault))

def loadFiles (files : Files) (c : Catalogue) : List Bytes → Catalogue × List Log.Entry
  | [] => (c, [])
  | path :: rest =>
      let step := c.loadFile reader files path
      let others := step.catalogue.loadFiles files rest
      (others.1, step.log ++ others.2)

/-- Load every document of the folder into a cleared catalogue.  Only a folder that
cannot be listed is an error. -/
def loadAll (files : Files) (c : Catalogue) : Step Unit :=
  let started := Log.Event.checksLoadBegin.entry [("dir", Text.ofBytes c.folder)]
  match files.names c.folder with
  | .error e => ⟨.error e, c.clear, [started]⟩
  | .ok names =>
      let (after, log) := c.clear.loadFiles reader files (c.documents names)
      ⟨.ok (), after, started :: log ++
        [Log.Event.checksLoadComplete.entry
          [("loaded", toString after.checks.length), ("rejected", toString after.rejected.length)]]⟩

/-! ## Inspecting -/

/-- The check that stands in the place of the first origin that leads where a path does. -/
def recorded? (files : Files) (c : Catalogue) (path : Bytes) : Option Pipeline :=
  (c.origins.findIdx? fun origin => files.same (Text.bytes origin) path).bind fun place =>
    c.checks[place]?

/-- What a document compiles to, without recording it.  A document that the
catalogue knows has its recorded outcome; any other is read, and refused if its id is
taken. -/
def inspect (files : Files) (c : Catalogue) (path : Bytes) : Except CheckError Pipeline :=
  match c.recorded? files path with
  | some p => .ok p
  | none =>
      match c.rejected.find? fun entry => files.same (Text.bytes entry.origin) path with
      | some entry => .error entry.error
      | none =>
          match files.read path with
          | .error fault => .error (.malformedDocument (.unreadableFile fault))
          | .ok text => do
              let p ← Pipeline.ofDocument reader text
              if (c.get? p.id).isSome then throw (.duplicateCheck p.id)
              return p

end Reading

end Catalogue

end MapAudit
