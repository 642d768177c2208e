/-!
# Messages

What is sent to every client at once, and where it came from. The source of a
message is kept for the account of deliveries only; it never decides who receives
the text.
-/

set_option autoImplicit false

namespace PipeCast

/-- The number under which a client is registered. Numbers are machine words, so
the counter that hands them out wraps. -/
abbrev ClientId := UInt64

namespace Message

inductive Source where
  | system
  | client (id : ClientId)
  | pipe
  deriving DecidableEq, Repr

def Source.display : Source → String
  | .system => "system"
  | .client id => "client(" ++ toString id.toNat ++ ")"
  | .pipe => "fifo"

/-- Sent to every client, the newcomer included, when a client joins. -/
def announcement : String := "a new participant has joined"

end Message

/-- A text for every client, with its source. -/
structure Message where
  source : Message.Source
  text : String
  deriving DecidableEq, Repr

namespace Message

def joined : Message := ⟨.system, announcement⟩

def line (text : String) : Message := ⟨.pipe, text⟩

def said (id : ClientId) (text : String) : Message := ⟨.client id, text⟩

end Message

end PipeCast
