import PipeCast.Files.Change
import PipeCast.Startup.Failure

/-!
# Provisioning the pipe

A bridge makes its pipe unless one is there. Making looks at the path without
following a link at its end; only when something is there does a second look
follow all links and decide what it is.
-/

set_option autoImplicit false

namespace PipeCast

namespace Provision

/-- The permissions of a new pipe, before the mask: its owner reads and writes. -/
def pipeMode : Files.Mode := 0o600

inductive Outcome where
  | created
  | alreadyPresent
  deriving DecidableEq, Repr

/-- A path with this byte names nothing. -/
def nul : UInt8 := 0x00

end Provision

open Provision in
def provision (files : Files) (path : List UInt8) : Files × Except StartupFailure Outcome :=
  if nul ∈ path then
    (files, .error (.provision path (.custom .invalidInput "path contains a nul byte")))
  else
    match files.makePipe path pipeMode with
    | .ok changed => (changed, .ok .created)
    | .error source =>
        if source.kind = .alreadyExists then
          match files.look path with
          | .error source => (files, .error (.provision path source))
          | .ok (.pipe _) => (files, .ok .alreadyPresent)
          | .ok _ => (files, .error (.notAPipe path))
        else (files, .error (.provision path source))

end PipeCast
