import PipeCast.Hub.Broadcast
import PipeCast.Reader.Source
import PipeCast.Text.Blank
import PipeCast.Text.Utf8

/-!
# Sessions of the pipe's reader

The reader opens its path, forwards every piece of what it reads as a line, and
opens the path again. A path that cannot be opened is tried again after a delay;
that round forwards nothing.
-/

set_option autoImplicit false

namespace PipeCast.Reader

open Text

/-- The line that a piece is forwarded as. Each piece is decoded on its own, and
only blanks at its end are removed. -/
def lineOf (piece : List UInt8) : String :=
  String.ofList (trimEnd (Utf8.decodeLossy piece))

inductive Opening where
  | failed (error : IoError)
  | opened (source : Source)
  deriving DecidableEq, Repr

/-- The lines that are forwarded once the path has been opened. -/
def Opening.lines : Opening → List String
  | .failed _ => []
  | .opened source => source.pieces.map lineOf

/-- What a session has done. The lines and the reports are listed latest first. -/
structure Account where
  hub : Hub
  /-- How many lines have been forwarded. -/
  forwarded : Nat
  said : List String
  sent : List Hub.Report

def Account.forward (account : Account) (piece : List UInt8) : Account :=
  let line := lineOf piece
  let (hub, report) := account.hub.broadcast (.line line)
  ⟨hub, account.forwarded + 1, line :: account.said, report :: account.sent⟩

/-- What a round of the reader came to. -/
inductive Outcome where
  | unopened (error : IoError)
  /-- The session ended and returned how many lines it had forwarded. The lines are
  these, and these broadcasts sent them. -/
  | ended (forwarded : Nat) (said : List String) (sent : List Hub.Report)
      (error : Option IoError)
  deriving DecidableEq, Repr

/-- One round: open, and forward everything that can be read. -/
def round (hub : Hub) : Opening → Hub × Outcome
  | .failed error => (hub, .unopened error)
  | .opened source =>
      let account := source.onPieces Account.forward ⟨hub, 0, [], []⟩
      (account.hub, .ended account.forwarded account.said.reverse account.sent.reverse
        source.failure)

end PipeCast.Reader
