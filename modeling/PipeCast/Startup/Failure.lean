import PipeCast.Startup.Address
import PipeCast.Startup.IoError
import PipeCast.Text.Utf8

/-!
# Start-up failures

The conditions that keep a bridge from starting. Whatever goes wrong later is
mended where it happens, so no other failure reaches whoever started the bridge.
-/

set_option autoImplicit false

namespace PipeCast

open Text

/-- Why a bridge could not start. Paths are byte strings and need not be text. -/
inductive StartupFailure where
  /-- The pipe could not be made, or what stands at its path could not be looked at. -/
  | provision (path : List UInt8) (source : IoError)
  | notAPipe (path : List UInt8)
  | bind (address : Address) (source : IoError)
  | readerSpawn (source : IoError)
  | serve (source : IoError)
  deriving DecidableEq, Repr

namespace StartupFailure

def name : StartupFailure → String
  | .provision .. => "Provision"
  | .notAPipe _ => "NotAFifo"
  | .bind .. => "Bind"
  | .readerSpawn _ => "ReaderSpawn"
  | .serve _ => "Serve"

/-- The error below the condition, where there is one. -/
def source? : StartupFailure → Option IoError
  | .provision _ source => some source
  | .notAPipe _ => none
  | .bind _ source => some source
  | .readerSpawn source => some source
  | .serve source => some source

/-- The text of a failure. Bytes of a path that spell no text are shown as
replacement characters. -/
def message : StartupFailure → String
  | .provision path source =>
      "failed to provision fifo at " ++ Utf8.readLossy path ++ ": " ++ source.message
  | .notAPipe path => Utf8.readLossy path ++ " exists but is not a fifo"
  | .bind address source => "failed to bind " ++ address.text ++ ": " ++ source.message
  | .readerSpawn source => "failed to spawn fifo reader thread: " ++ source.message
  | .serve source => "server error: " ++ source.message

end StartupFailure

end PipeCast
