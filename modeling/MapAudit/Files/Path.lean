import MapAudit.Files.Basic

/-!
# Paths

`segments` divides a path at its slashes, `components` gives what two paths are compared
by, and `extension?` is the end of a file name.
-/

namespace MapAudit.Path

set_option autoImplicit false

def slash : UInt8 := 0x2F

def dot : UInt8 := 0x2E

/-- What stands between the slashes of a path. -/
def segments : Bytes → List Bytes
  | [] => [[]]
  | b :: rest =>
      if b = slash then [] :: segments rest
      else
        match segments rest with
        | [] => [[b]]
        | first :: others => (b :: first) :: others

/-- A step of a path. -/
inductive Component where
  /-- The root of all folders. -/
  | root
  /-- The folder itself, written at the front. -/
  | here
  /-- The enclosing folder. -/
  | up
  | name (bytes : Bytes)
  deriving DecidableEq, Repr

/-- The step that a segment stands for; empty segments and dots stand for none. -/
def component? (segment : Bytes) : Option Component :=
  if segment = [] ∨ segment = [dot] then none
  else if segment = [dot, dot] then some .up
  else some (.name segment)

/-- What the steps of a path begin with, given its segments. -/
def lead : List Bytes → List Component
  | [] :: _ :: _ => [.root]
  | first :: _ => if first = [dot] then [.here] else []
  | [] => []

/-- The steps of a path.  Repeated and trailing slashes and inner dots do not
count; a slash or a dot at the front does. -/
def components (path : Bytes) : List Component :=
  lead (segments path) ++ (segments path).filterMap component?

def join (folder name : Bytes) : Bytes :=
  if folder = [] then name
  else if folder.getLast? = some slash then folder ++ name
  else folder ++ slash :: name

/-- What follows the last dot of a file name.  There is nothing if the only dot is
in front. -/
def extension? (name : Bytes) : Option Bytes :=
  match name.reverse.dropWhile (· ≠ dot) with
  | [] => none
  | _ :: [] => none
  | _ :: _ :: _ => some (name.reverse.takeWhile (· ≠ dot)).reverse

end MapAudit.Path

namespace MapAudit

/-- Whether a path leads where another does: by their one name where both lead
somewhere, and by their components otherwise. -/
def Files.same (files : Files) (a b : Bytes) : Bool :=
  match files.real? a, files.real? b with
  | some x, some y => x == y
  | _, _ => Path.components a == Path.components b

end MapAudit
