import PipeCast.Startup.Config
import PipeCast.Startup.Provision

/-!
# Launching a bridge

The stages of a start: provision the pipe, start its reader, bind the port, serve.
The first stage that fails decides what the start comes to, and nothing after it
happens. What an earlier stage left behind stays.
-/

set_option autoImplicit false

namespace PipeCast

open Text

structure Host where
  files : Files
  /-- The ports that other programs are bound to. -/
  taken : List UInt16
  /-- Whether the machine can be reached over its own network. -/
  isReachable : Bool

/-- What the system answers to a start. -/
structure Services where
  /-- To the request for a thread that reads the pipe. -/
  thread : Except IoError Unit
  /-- To the request for a port on every interface. -/
  bind : UInt16 → Except IoError Unit
  /-- How serving ends. -/
  serve : Except IoError Unit

namespace Host

/-- Binds a port. Port zero stands for any port that is free. -/
def bind (host : Host) (port : UInt16) : Except IoError Unit :=
  if port ≠ 0 ∧ port ∈ host.taken then .error .addressInUse else .ok ()

/-- Only a port that is taken stands in the way of a start. -/
def services (host : Host) : Services := ⟨.ok (), host.bind, .ok ()⟩

end Host

namespace Launch

inductive Entry where
  | provisioned (outcome : Provision.Outcome) (path : String)
  | configured (path : String) (relaysClients : Bool)
  | listening (address : Address)
  | shuttingDown
  | stopped (failure : StartupFailure)
  deriving DecidableEq, Repr

end Launch

structure Launch where
  files : Files
  entries : List Launch.Entry
  startedReader : Bool
  /-- The address to which a port was bound, if it came to that. -/
  bound : Option Address
  /-- The address that was served, or what failed. -/
  result : Except StartupFailure Address

/-- The stages after the pipe is there. -/
def Launch.proceed (services : Services) (files : Files) (config : Config)
    (outcome : Provision.Outcome) : Launch :=
  let address := .anyInterface config.port
  let entries := [.provisioned outcome config.pipePath]
  match services.thread with
  | .error source => ⟨files, entries, false, none, .error (.readerSpawn source)⟩
  | .ok () =>
      let entries := entries ++ [.configured config.pipePath config.relaysClients]
      match services.bind config.port with
      | .error source => ⟨files, entries, true, none, .error (.bind address source)⟩
      | .ok () =>
          let entries := entries ++ [.listening address]
          match services.serve with
          | .error source => ⟨files, entries, true, some address, .error (.serve source)⟩
          | .ok () => ⟨files, entries, true, some address, .ok address⟩

def launchOn (services : Services) (files : Files) (config : Config) : Launch :=
  match provision files (Utf8.bytesOf config.pipePath) with
  | (files, .error failure) => ⟨files, [], false, none, .error failure⟩
  | (files, .ok outcome) => .proceed services files config outcome

def launch (host : Host) (config : Config) : Launch :=
  launchOn host.services host.files config

end PipeCast
