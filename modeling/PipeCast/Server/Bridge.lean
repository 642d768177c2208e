import PipeCast.Http.Routes
import PipeCast.Reader.Opening
import PipeCast.Server.Gateway
import PipeCast.Startup.Launch

/-!
# A bridge in service

A bridge that has started, with its clients and its pipe. Clients reach it over
the network of its host, and a host that cannot be reached refuses them. Clients
are numbered in the order in which they connect.
-/

set_option autoImplicit false

namespace PipeCast

open Text

structure Bridge where
  isReachable : Bool
  files : Files
  config : Config
  gateway : Gateway
  /-- The clients in the order in which they connected. -/
  clients : List ClientId

namespace Bridge

inductive Action where
  | connect
  | text (client : Nat) (message : String)
  | close (client : Nat)
  /-- A writer opens the pipe, writes and closes. -/
  | session (arrivals : List (List UInt8))
  | request (request : Http.Request)
  deriving DecidableEq, Repr

inductive Answer where
  /-- The response that let the client in, and what was sent. -/
  | connected (response : Http.Response) (sent : List (ClientId × Server.Sent))
  | sent (sent : List (ClientId × Server.Sent))
  /-- How many lines were forwarded, and what was sent. -/
  | lines (count : Nat) (sent : List (ClientId × Server.Sent))
  | response (response : Http.Response)
  deriving DecidableEq, Repr

/-- The bridge that a start left running. -/
def ofLaunch (host : Host) (config : Config) (launch : Launch) : Bridge :=
  ⟨host.isReachable, launch.files, config, .fresh config.relaysClients, []⟩

/-- The identity of a client by its place among all that connected. -/
def client? (bridge : Bridge) (client : Nat) : Option ClientId := bridge.clients[client]?

/-- A turn in which a client sends a frame. -/
def exchange (bridge : Bridge) (id : ClientId) (frames : List UInt8) :
    Bridge × List (ClientId × Server.Sent) :=
  let (gateway, turn) := bridge.gateway.turn (.bytes id frames)
  ({ bridge with gateway := gateway }, turn.sent)

/-- The text that a client pings with to learn that what it sent has been read. -/
def probe : List UInt8 := Utf8.bytesOf "sync"

/-- The frames of a client's text. Where nothing comes back, a ping follows. -/
def framesOf (bridge : Bridge) (message : String) : List UInt8 :=
  WebSocket.Frame.encode true .text (Utf8.bytesOf message) ++
    if bridge.config.relaysClients then [] else WebSocket.Frame.encode true .ping probe

def connect (bridge : Bridge) : Bridge × Answer :=
  let response := Http.respondToAny bridge.gateway.server.clients true
    ⟨"GET", "/", Http.upgradeHeaders⟩
  let (gateway, id, turn) := bridge.gateway.connect
  ({ bridge with gateway := gateway, clients := bridge.clients ++ [id] },
    .connected response turn.sent)

/-- Acts for a client. One that never connected cannot act. -/
def actFor (bridge : Bridge) (client : Nat) (frames : List UInt8) :
    Except IoError (Bridge × Answer) :=
  match bridge.client? client with
  | none => .error .absent
  | some id =>
      let (bridge, sent) := bridge.exchange id frames
      .ok (bridge, .sent sent)

def act (bridge : Bridge) : Action → Except IoError (Bridge × Answer)
  | .connect => if bridge.isReachable then .ok bridge.connect else .error .unreachable
  | .text client message => bridge.actFor client (bridge.framesOf message)
  | .close client => bridge.actFor client (WebSocket.Frame.encode true .close [])
  | .session arrivals =>
      let opening :=
        Reader.openPath bridge.files arrivals (Utf8.bytesOf bridge.config.pipePath)
      let lines := opening.lines
      let (gateway, turn) := bridge.gateway.turn (.lines lines)
      .ok ({ bridge with gateway := gateway }, .lines lines.length turn.sent)
  | .request request =>
      if bridge.isReachable then
        .ok (bridge, .response
          (Http.respondToAny bridge.gateway.server.clients true request))
      else .error .unreachable

/-- Lets clients and writers act one after another, until one cannot. -/
def run (bridge : Bridge) : List Action → Except IoError (Bridge × List Answer)
  | [] => .ok (bridge, [])
  | action :: rest => do
      let (bridge, answer) ← bridge.act action
      let (final, answers) ← bridge.run rest
      return (final, answer :: answers)

end Bridge

end PipeCast
