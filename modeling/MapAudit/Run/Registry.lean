/-!
# The registry of classes

Classes of issues are registered once each; a *handle* is the place of a class in
the order of registration, as a 32-bit number.
-/

namespace MapAudit.Run

set_option autoImplicit false

structure RegisteredClass where
  item : String
  level : String
  tags : List String
  title : String
  deriving DecidableEq, Repr

abbrev Handle := UInt32

/-- The registered classes, in the order of registration. -/
structure Registry where
  classes : List RegisteredClass := []
  deriving Repr

namespace Registry

def size (r : Registry) : Nat := r.classes.length

def get? (r : Registry) (handle : Handle) : Option RegisteredClass :=
  r.classes[handle.toNat]?

def nextHandle (r : Registry) : Handle := UInt32.ofNat r.size

def register (r : Registry) (c : RegisteredClass) : Registry :=
  ⟨r.classes ++ [c]⟩

@[simp] theorem size_register (r : Registry) (c : RegisteredClass) :
    (r.register c).size = r.size + 1 := by
  simp [size, register]

end Registry

end MapAudit.Run
