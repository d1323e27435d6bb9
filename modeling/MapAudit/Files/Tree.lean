import MapAudit.Files.Path

/-!
# File trees

`FileTree` is a file system without links, as a value: paths are followed from its top
folder.
-/

namespace MapAudit

set_option autoImplicit false

/-- A file, or a folder with its entries. -/
inductive FileTree where
  | file (content : ByteArray)
  | folder (entries : List (Bytes × FileTree))

namespace FileTree

def empty : FileTree := .folder []

def child? : FileTree → Bytes → Option FileTree
  | .file _, _ => none
  | .folder entries, name => (entries.find? fun entry => entry.1 = name).map (·.2)

/-- What names lead to, one inside the other. -/
def descend? (tree : FileTree) : List Bytes → Option FileTree
  | [] => some tree
  | name :: rest => (tree.child? name).bind (descend? · rest)

def isFolder : FileTree → Bool
  | .folder _ => true
  | .file _ => false

/-! ## Following paths -/

/-- Where following a path has come to. -/
inductive Place where
  /-- Inside the top folder, under names one inside the other. -/
  | inside (names : List Bytes)
  /-- In the folder so many steps above the top folder.  Nothing is known of what
  else it holds. -/
  | above (steps : Nat)
  /-- In the root of all folders, of which nothing else is known. -/
  | root
  deriving DecidableEq, Repr

def Place.name : Place → List Bytes
  | .inside names => names
  | .above steps => List.replicate steps [Path.dot, Path.dot]
  | .root => [[Path.slash]]

def Place.up : Place → Place
  | .inside names => if names.isEmpty then .above 1 else .inside names.dropLast
  | .above steps => .above (steps + 1)
  | .root => .root

def maxNameBytes : Nat := 255

def maxPathBytes : Nat := 4095

/-- Follow a name into a place.  It starts from a folder. -/
def enter (top : FileTree) (place : Place) (name : Bytes) : Except FileFault Place :=
  if name.length > maxNameBytes then .error .nameTooLong
  else
    match place with
    | .inside names =>
        if (top.descend? (names ++ [name])).isSome then .ok (.inside (names ++ [name]))
        else .error .notFound
    | _ => .error .notFound

def isFolderAt (top : FileTree) : Place → Bool
  | .inside names => ((top.descend? names).map isFolder).getD false
  | _ => true

/-- Follow one segment of a path.  Every segment, the empty one too, starts from a
folder. -/
def follow (top : FileTree) (place : Place) (segment : Bytes) : Except FileFault Place :=
  if !top.isFolderAt place then .error .notFolder
  else if segment = [] ∨ segment = [Path.dot] then .ok place
  else if segment = [Path.dot, Path.dot] then .ok place.up
  else top.enter place segment

def holdsNul (path : Bytes) : Bool :=
  path.contains 0

/-- Follow a path from the top folder, segment by segment. -/
def walk (top : FileTree) (path : Bytes) : Except FileFault Place :=
  if holdsNul path then .error .nulInPath
  else if path = [] then .error .notFound
  else
    match Path.segments path with
    | [] :: rest => rest.foldlM (follow top) .root
    | segments => segments.foldlM (follow top) (.inside [])

/-- Follow a path that is handed over in one piece, and so may not be too long. -/
def locate (top : FileTree) (path : Bytes) : Except FileFault Place :=
  if holdsNul path then .error .nulInPath
  else if path.length > maxPathBytes then .error .nameTooLong
  else top.walk path

def fileNames (entries : List (Bytes × FileTree)) : List Bytes :=
  (entries.filter fun entry => !entry.2.isFolder).map (·.1)

/-- The names of the files directly in a folder.  A file is not seen if its path
through the folder would be too long. -/
def list (top : FileTree) (path : Bytes) : Except FileFault (List Bytes) := do
  match ← top.locate path with
  | .inside names =>
      match top.descend? names with
      | some (.folder entries) =>
          return (fileNames entries).filter fun name =>
            (Path.join path name).length ≤ maxPathBytes
      | some (.file _) => throw .notFolder
      | none => throw .notFound
  | _ => return []

def read (top : FileTree) (path : Bytes) : Except FileFault String := do
  match ← top.locate path with
  | .inside names =>
      match top.descend? names with
      | some (.file content) =>
          match String.fromUTF8? content with
          | some text => return text
          | none => throw .notUtf8
      | some (.folder _) => throw .isFolder
      | none => throw .notFound
  | _ => throw .isFolder

/-- The one name of what a path leads to.  It is found segment by segment, so the
path may be of any length. -/
def real? (top : FileTree) (path : Bytes) : Option (List Bytes) :=
  match top.walk path with
  | .ok place => some place.name
  | .error _ => none

/-- A file tree as the library sees it.  Every entry of it is within reach. -/
def files (top : FileTree) : Files where
  list path := (List.map Except.ok) <$> top.list path
  read := top.read
  real? := top.real?

/-! ## Changing a tree -/

/-- Put a tree under names, making folders on the way.  A folder that is there is
kept when an empty one is put in its place. -/
def insert (new : FileTree) : List Bytes → FileTree → FileTree
  | [], tree =>
      match tree, new with
      | .folder entries, .folder [] => .folder entries
      | _, _ => new
  | name :: rest, tree =>
      let inner := insert new rest ((tree.child? name).getD empty)
      match tree with
      | .file _ => .folder [(name, inner)]
      | .folder entries => .folder (entries.filter (fun entry => entry.1 ≠ name) ++ [(name, inner)])

/-- Make the folder that a segment names in the folder under some names: the tree
with it, and its names. -/
def makeFolder (made : FileTree × List Bytes) (segment : Bytes) : FileTree × List Bytes :=
  if segment = [] ∨ segment = [Path.dot] then made
  else if segment = [Path.dot, Path.dot] then (made.1, made.2.dropLast)
  else (insert empty (made.2 ++ [segment]) made.1, made.2 ++ [segment])

def putFolder (top : FileTree) (path : Bytes) : FileTree :=
  ((Path.segments path).foldl makeFolder (top, [])).1

/-- Put a file at a path, making the folders on the way to it. -/
def putFile (top : FileTree) (path : Bytes) (content : ByteArray) : FileTree :=
  let segments := Path.segments path
  let (tree, names) := segments.dropLast.foldl makeFolder (top, [])
  insert (.file content) (names ++ segments.getLast?.toList) tree

/-- Take away the entry that names lead to. -/
def erase (tree : FileTree) : List Bytes → FileTree
  | [] => tree
  | [name] =>
      match tree with
      | .file content => .file content
      | .folder entries => .folder (entries.filter fun entry => entry.1 ≠ name)
  | name :: next :: rest =>
      match tree with
      | .file content => .file content
      | .folder entries =>
          .folder (entries.map fun entry =>
            if entry.1 = name then (entry.1, entry.2.erase (next :: rest)) else entry)

def remove? (top : FileTree) (path : Bytes) : Option FileTree :=
  match top.locate path with
  | .ok (.inside names) =>
      match top.descend? names with
      | some (.file _) => some (top.erase names)
      | _ => none
  | _ => none

end FileTree

end MapAudit
