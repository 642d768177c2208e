import PipeCast.Files.Tree
import PipeCast.Reader.Session

/-!
# Opening the pipe

What the reader gets when it opens its path. A pipe gives what its writer wrote, a
file what it holds. A directory can be opened, but the first read from it fails.
-/

set_option autoImplicit false

namespace PipeCast.Reader

/-- Opens what stands at a path. What a writer writes to a pipe is given by the
arrivals. -/
def openNode (arrivals : List (List UInt8)) : Files.Node → Opening
  | .pipe _ => .opened ⟨arrivals, none⟩
  | .file data => .opened ⟨[data], none⟩
  | .directory => .opened ⟨[], some .isDirectory⟩
  | .device => .opened ⟨[], none⟩
  | .link _ => .failed .tooManyLinks

/-- Opens a path, following links. -/
def openPath (files : Files) (arrivals : List (List UInt8)) (path : List UInt8) : Opening :=
  if 0x00 ∈ path then
    .failed (.custom .invalidInput "file name contained an unexpected NUL byte")
  else
    match files.look path with
    | .ok node => openNode arrivals node
    | .error error => .failed error

end PipeCast.Reader
