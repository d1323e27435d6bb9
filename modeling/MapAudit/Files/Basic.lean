import MapAudit.Text.Utf8

/-!
# File systems

`Files` is what the library asks of a file system: to list a folder, to read a file, and
to tell where a path leads.  Paths and names are bytes.  A `Snapshot` is what was seen of
a file system before a command runs.
-/

namespace MapAudit

set_option autoImplicit false

/-- Why a path cannot be listed or read. -/
inductive FileFault where
  /-- Nothing bears that name. -/
  | notFound
  /-- A name on the way, or the path to list, is no folder. -/
  | notFolder
  /-- The path to read is a folder. -/
  | isFolder
  /-- A name on the way is longer than a file name may be. -/
  | nameTooLong
  /-- The path holds a NUL character. -/
  | nulInPath
  /-- The bytes of the file are not UTF-8. -/
  | notUtf8
  /-- Any other fault, in the words of the system. -/
  | other (text : String)
  deriving DecidableEq, Repr

/-- The wording of a fault, which is that of the operating system. -/
def FileFault.message : FileFault → String
  | .notFound => "No such file or directory (os error 2)"
  | .notFolder => "Not a directory (os error 20)"
  | .isFolder => "Is a directory (os error 21)"
  | .nameTooLong => "File name too long (os error 36)"
  | .nulInPath => "file name contained an unexpected NUL byte"
  | .notUtf8 => "stream did not contain valid UTF-8"
  | .other text => text

/-- A view of a file system at one moment. -/
structure Files where
  /-- The names of the regular files that are seen directly in a folder, in any
  order.  Some entry may be out of reach. -/
  list : Bytes → Except FileFault (List (Except FileFault Bytes))
  /-- The text of a file. -/
  read : Bytes → Except FileFault String
  /-- The one name of whatever a path leads to. -/
  real? : Bytes → Option (List Bytes)

/-- What was seen of a file system. -/
structure Snapshot where
  folders : List (Bytes × Except FileFault (List (Except FileFault Bytes))) := []
  texts : List (Bytes × Except FileFault String) := []
  places : List (Bytes × List Bytes) := []

/-- A snapshot as the library sees it.  A path that was not looked at leads nowhere. -/
def Snapshot.files (s : Snapshot) : Files where
  list path := (s.folders.lookup path).getD (.error .notFound)
  read path := (s.texts.lookup path).getD (.error .notFound)
  real? path := s.places.lookup path

end MapAudit
