import PipeCast.Server.Basic

/-!
# The server behind its wires

The bytes of each client become what the client sent, and a turn of the server is
whatever one arrival of bytes, one call or a batch of lines brings about. Writers
send at the end of a turn. A turn's notes come in order, except that failed writes
are noted last and by client.
-/

set_option autoImplicit false

namespace PipeCast

namespace Gateway

inductive Event where
  | bytes (id : ClientId) (bytes : List UInt8)
  | vanished (id : ClientId)
  | writesFail (id : ClientId)
  | lines (texts : List String)
  deriving DecidableEq, Repr

structure Turn where
  notes : List Server.Note
  sent : List (ClientId × Server.Sent)
  deriving DecidableEq, Repr

end Gateway

/-- A server, with what is known of each client's bytes. -/
structure Gateway where
  server : Server
  streams : List (ClientId × WebSocket.Stream)

namespace Gateway

def fresh (relaysClients : Bool) : Gateway := ⟨.fresh relaysClients, []⟩

def streamOf (gateway : Gateway) (id : ClientId) : WebSocket.Stream :=
  (gateway.streams.lookup id).getD .fresh

/-- Answers a ping at once. An answer that cannot be written makes the reading
fail. -/
def answerPing (server : Server) (id : ClientId) (payload : List UInt8) : Server :=
  server.onOpen id fun connection =>
    if connection.isWritable then server.send id (.pong payload)
    else server.handle (.readFails id)

def handOn (id : ClientId) (server : Server) (inbound : WebSocket.Inbound) : Server :=
  match inbound with
  | .ping payload => answerPing server id payload
  | _ => server.handle (.received id inbound)

/-- Takes bytes from a client, and everything that they say in order. -/
def receive (gateway : Gateway) (id : ClientId) (bytes : List UInt8) : Gateway :=
  let (stream, received, violation) := (gateway.streamOf id).feed bytes
  let server := received.foldl (handOn id) gateway.server
  { server := if violation.isSome then server.handle (.readFails id) else server
    streams := (id, stream) :: gateway.streams.filter fun entry => entry.1 ≠ id }

/-- Lets something happen at the wires, up to what the writers do. -/
def handle (gateway : Gateway) : Event → Gateway
  | .bytes id bytes => gateway.receive id bytes
  | .vanished id => { gateway with server := gateway.server.handle (.vanished id) }
  | .writesFail id => { gateway with server := gateway.server.handle (.writesFail id) }
  | .lines texts =>
      { gateway with
        server := (texts.map Server.Event.line).foldl Server.handle gateway.server }

/-- The client of a note that a write failed. -/
def failedWrite? : Server.Note → Option ClientId
  | .writeFailed id => some id
  | _ => none

/-- Notes in the order in which they are written: failed writes last, by client. -/
def arrange (notes : List Server.Note) : List Server.Note :=
  (notes.filter fun note => (failedWrite? note).isNone) ++
    ((notes.filterMap failedWrite?).mergeSort fun first second => first ≤ second).map
      Server.Note.writeFailed

/-- Ends a turn: the writers send, and the turn's account is handed over. -/
def endTurn (gateway : Gateway) : Gateway × Turn :=
  let server := gateway.server.settle
  ({ gateway with server := { server with notes := [], sent := [] } },
    ⟨arrange server.notes.reverse, server.sent.reverse⟩)

def turn (gateway : Gateway) (event : Event) : Gateway × Turn :=
  (gateway.handle event).endTurn

def connect (gateway : Gateway) : Gateway × ClientId × Turn :=
  let (server, id) := gateway.server.connect
  let (gateway, turn) := endTurn { gateway with server := server }
  (gateway, id, turn)

end Gateway

end PipeCast
