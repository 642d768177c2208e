import PipeCast.Hub.Broadcast
import PipeCast.Text.Preview
import PipeCast.WebSocket.Stream

/-!
# The server

Connections of clients over one hub. A connection reads what its client sends, and
has a writer that empties the client's queue onto the wire. The two end
separately: a writer whose write fails drops the queue while the connection goes
on reading, and a connection that has ended leaves its writer to send what is
queued and to close the wire.

The account of a server lists what was noted for the log and what was put on the
wire; no operation reads it.
-/

set_option autoImplicit false

namespace PipeCast

namespace Server

inductive Writer where
  /-- Sending what is queued. -/
  | running
  /-- Stopped by a write that failed. -/
  | failed
  /-- Done, with the wire closed. -/
  | finished
  deriving DecidableEq, Repr

structure Connection where
  id : ClientId
  channel : Hub.ChannelId
  isOpen : Bool
  writer : Writer
  /-- Whether what is written reaches the client. -/
  isWritable : Bool
  deriving DecidableEq, Repr

inductive Sent where
  | text (text : String)
  | pong (payload : List UInt8)
  | close (reason : Option WebSocket.Close)
  | eof
  deriving DecidableEq, Repr

inductive Note where
  | connected (id : ClientId) (clients : Nat)
  | said (id : ClientId) (preview : String)
  | ignoredBinary (id : ClientId) (length : Nat)
  | readFailed (id : ClientId)
  | writeFailed (id : ClientId)
  | closeFailed (id : ClientId)
  | disconnected (id : ClientId) (clients : Nat)
  | gone (id : ClientId) (source : Message.Source)
  | delivered (source : Message.Source) (recipients dropped : Nat)
  deriving DecidableEq, Repr

inductive Ending where
  /-- The client asked for it, with or without a reason. -/
  | closed (reason : Option WebSocket.Close)
  /-- The client broke the protocol, or its ping could not be answered. -/
  | faulted
  | vanished
  deriving DecidableEq, Repr

end Server

structure Server where
  /-- Whether a client's text is sent to every client. -/
  relaysClients : Bool
  hub : Hub
  /-- All connections ever made, in order. -/
  connections : List Server.Connection
  /-- What was noted, latest first. -/
  notes : List Server.Note
  /-- What was put on the wire, latest first. -/
  sent : List (ClientId × Server.Sent)

namespace Server

def fresh (relaysClients : Bool) : Server := ⟨relaysClients, .fresh, [], [], []⟩

def clients (server : Server) : Nat := server.hub.registry.size

def note (server : Server) (note : Note) : Server :=
  { server with notes := note :: server.notes }

def send (server : Server) (id : ClientId) (sent : Sent) : Server :=
  { server with sent := (id, sent) :: server.sent }

def connection? (server : Server) (id : ClientId) : Option Connection :=
  server.connections.find? fun connection => connection.id = id

def modify (server : Server) (id : ClientId) (change : Connection → Connection) : Server :=
  { server with
    connections := server.connections.map fun connection =>
      if connection.id = id then change connection else connection }

/-- Sends a message to everyone registered, and notes what came of it. -/
def broadcast (server : Server) (message : Message) : Server :=
  let (hub, report) := server.hub.broadcast message
  { server with
    hub := hub
    notes := .delivered report.source report.recipients report.dropped ::
      (report.gone.map fun id => .gone id report.source).reverse ++ server.notes }

/-! ## Writers -/

/-- Lets the writer of a connection send what is queued. A write that does not
reach the client fails; it drops the queue, and with it every later delivery. -/
def write (server : Server) (connection : Connection) (reaches : Bool) : Server :=
  if connection.writer ≠ .running ∨ server.hub.queueOf connection.channel = [] then server
  else if reaches then
    let (hub, texts, _) := server.hub.drain connection.channel
    { server with
      hub := hub
      sent := (texts.map fun text => (connection.id, .text text)).reverse ++ server.sent }
  else
    ({ server with hub := server.hub.dropReceiver connection.channel }.modify connection.id
      fun found => { found with writer := .failed }).note (.writeFailed connection.id)

/-- Lets every writer send what is queued, in the order of the connections. -/
def settle (server : Server) : Server :=
  server.connections.foldl
    (fun server connection => server.write connection connection.isWritable) server

/-- What the writer puts on the wire last. Nothing can be told to a client that is
no longer there. -/
def closeWire (server : Server) (connection : Connection) : Ending → Server
  | .vanished => server
  | .faulted =>
      if connection.isWritable then server.send connection.id (.close none)
      else server.note (.closeFailed connection.id)
  | .closed reason =>
      if connection.isWritable then
        server.send connection.id (.close (reason.map WebSocket.Close.answer))
      else server.note (.closeFailed connection.id)

/-- Lets a writer finish whose connection has ended. It waits as long as a handle
of its channel is left anywhere. -/
def finishWriter (server : Server) (id : ClientId) (ending : Ending) : Server :=
  match server.connection? id with
  | none => server
  | some connection =>
      if connection.writer ≠ .running ∨ server.hub.isHeld connection.channel then server
      else
        ({ server with hub := server.hub.dropReceiver connection.channel }.modify id
          fun found => { found with writer := .finished }).closeWire connection ending

/-- Ends a connection: its entry leaves the registry, its handle is dropped, and
its writer sends what is queued and closes the wire. Nothing but the answer may be
sent to a client that has asked to close, so a text still queued then fails. -/
def finish (server : Server) (connection : Connection) (ending : Ending) : Server :=
  let (hub, _) := server.hub.withdraw .direct connection.id connection.channel
  let server := { server with hub := hub.dropHandle (.connection connection.id) }.modify
    connection.id fun found => { found with isOpen := false }
  let reaches := connection.isWritable && ending = .faulted
  let server := (server.write connection reaches).finishWriter connection.id ending
  let server := if ending = .vanished then server else server.send connection.id .eof
  server.note (.disconnected connection.id server.clients)

/-! ## Events -/

/-- Takes a new connection: it is numbered, registered and announced to everyone,
itself included. -/
def connect (server : Server) : Server × ClientId :=
  let (hub, id) := server.hub.issue
  let (hub, channel) := hub.openChannel (.connection id)
  let hub := hub.register id channel
  let connection : Connection := ⟨id, channel, true, .running, true⟩
  let server : Server :=
    { server with hub := hub, connections := server.connections ++ [connection] }
  ((server.note (.connected id server.clients)).broadcast .joined, id)

def onOpen (server : Server) (id : ClientId) (act : Connection → Server) : Server :=
  match server.connection? id with
  | some connection => if connection.isOpen then act connection else server
  | none => server

/-- Notes that nothing more can be read from a client, and ends its connection. -/
def failReading (server : Server) (connection : Connection) (ending : Ending) : Server :=
  (server.note (.readFailed connection.id)).finish connection ending

/-- Takes what a client sent. Pings and pongs say nothing to the server. -/
def receive (server : Server) (id : ClientId) (inbound : WebSocket.Inbound) : Server :=
  server.onOpen id fun connection =>
    match inbound with
    | .text message =>
        let server := server.note (.said id (Text.Preview.of message))
        if server.relaysClients then server.broadcast (.said id message) else server
    | .binary length => server.note (.ignoredBinary id length)
    | .ping _ | .pong => server
    | .close reason => server.finish connection (.closed reason)

inductive Event where
  | connect
  | received (id : ClientId) (inbound : WebSocket.Inbound)
  /-- Nothing more can be read from a client, though it is there. -/
  | readFails (id : ClientId)
  /-- A client is gone without a word. -/
  | vanished (id : ClientId)
  /-- From now on, what is written does not reach the client. -/
  | writesFail (id : ClientId)
  | line (text : String)
  deriving DecidableEq, Repr

/-- Lets something happen, up to what the writers do. -/
def handle (server : Server) : Event → Server
  | .connect => server.connect.1
  | .received id inbound => server.receive id inbound
  | .readFails id => server.onOpen id fun connection => server.failReading connection .faulted
  | .vanished id => server.onOpen id fun connection => server.failReading connection .vanished
  | .writesFail id =>
      server.onOpen id fun _ => server.modify id fun found => { found with isWritable := false }
  | .line text => server.broadcast (.line text)

/-- Lets something happen, and the writers send what it queued. -/
def step (server : Server) (event : Event) : Server :=
  (server.handle event).settle

def run (server : Server) (events : List Event) : Server :=
  events.foldl step server

end Server

end PipeCast
