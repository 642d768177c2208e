import PipeCast.Startup.Filter
import PipeCast.Startup.Launch

/-!
# The log of a start

Every entry of a start has a level, a target and named fields, and becomes one line
of the log if the filter lets it through.
-/

set_option autoImplicit false

namespace PipeCast.Log

open Launch

def level : Entry → Level
  | .provisioned .alreadyPresent _ => .debug
  | .stopped _ => .error
  | _ => .info

def target : Entry → String
  | .provisioned _ _ => "fifo_bridge::channel::provision"
  | _ => "fifo_bridge"

/-- The names of the fields of an entry. Its text is one of them. -/
def fields : Entry → List String
  | .provisioned _ _ => ["message", "path"]
  | .configured _ _ => ["message", "fifo", "relay_client_messages"]
  | .listening _ => ["message", "addr"]
  | .shuttingDown => ["message"]
  | .stopped _ => ["message", "err"]

/-- What a filter looks at in an entry. -/
def subject (entry : Entry) : Directive.Subject :=
  ⟨level entry, target entry, fields entry⟩

def text : Entry → String
  | .provisioned .created path => "fifo created path=" ++ path
  | .provisioned .alreadyPresent path => "fifo already provisioned path=" ++ path
  | .configured path relaysClients =>
      "fifo-bridge configured fifo=" ++ path ++ " relay_client_messages=" ++ toString relaysClients
  | .listening address => "fifo-bridge listening addr=" ++ address.text
  | .shuttingDown => "shutting down"
  | .stopped failure => "fifo-bridge stopped err=" ++ failure.message

def line (entry : Entry) : String :=
  (level entry).name ++ " " ++ target entry ++ ": " ++ text entry

def lines (filter : Filter) (entries : List Entry) : List String :=
  (entries.filter fun entry => filter.lets (subject entry)).map line

end PipeCast.Log
