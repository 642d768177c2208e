/-!
# Paths

A path is a byte string. The system reads it as a way from the root or from the
working directory through named components. Repeated slashes count once; a slash
after the last component asks for a directory.
-/

set_option autoImplicit false

namespace PipeCast.Files

abbrev Name := List UInt8

def slash : UInt8 := 0x2F

def here : Name := [0x2E]

def parent : Name := [0x2E, 0x2E]

def nameLimit : Nat := 255

/-- The least length of a path that is too long, in bytes. -/
def pathLimit : Nat := 4096

structure Path where
  fromRoot : Bool
  /-- The components in order; none is empty or holds a slash. -/
  components : List Name
  /-- Whether a slash follows the last component. -/
  asksDirectory : Bool
  deriving DecidableEq, Repr

namespace Path

def ofBytes (bytes : List UInt8) : Path :=
  let components := (bytes.splitOnP (· = slash)).filter fun component => !component.isEmpty
  { fromRoot := bytes.head? = some slash
    components := components
    asksDirectory := !components.isEmpty && bytes.getLast? = some slash }

/-- The components to walk over. To ask for a directory is to step into it. -/
def steps (path : Path) : List Name :=
  path.components ++ if path.asksDirectory then [Files.here] else []

end Path

end PipeCast.Files
