import PipeCast.Proofs.Server.Standing

/-!
# What is put on the wire of a client

Every operation acts on the wires and queues of at most one connection, a broadcast
apart, which acts on queues only. A connection that ends has its last words said by its
writer: what is queued, unless nothing but the answer to a close may be sent any more, and
then the close and the end of the stream.
-/

set_option autoImplicit false

namespace PipeCast.Server

/-- What was put on the wire of a client, oldest first. -/
def wire (server : Server) (id : ClientId) : List Sent :=
  ((server.sent.filter fun entry => entry.1 = id).map Prod.snd).reverse

theorem wire_send (server : Server) (id other : ClientId) (sent : Sent) :
    (server.send id sent).wire other = server.wire other ++ if id = other then [sent] else [] := by
  by_cases same : id = other <;> simp [wire, send, same]

@[simp] theorem wire_note (server : Server) (note : Note) :
    (server.note note).wire = server.wire := rfl

@[simp] theorem wire_stop (server : Server) (connection : Connection) (writer : Writer) :
    (stop server connection writer).wire = server.wire := rfl

/-! ## Changes that concern one connection -/

/-- Nothing happens to the wire and the queue of any other connection. -/
structure Apart (id : ClientId) (channel : Hub.ChannelId) (before after : Server) : Prop where
  relays : after.relaysClients = before.relaysClients
  wire : ∀ other, other ≠ id → after.wire other = before.wire other
  queueOf : ∀ other, other ≠ channel → after.hub.queueOf other = before.hub.queueOf other

namespace Apart

variable {id : ClientId} {channel : Hub.ChannelId} {before between after : Server}

theorem refl (server : Server) : Apart id channel server server :=
  ⟨rfl, fun _ _ => rfl, fun _ _ => rfl⟩

theorem trans (first : Apart id channel before between) (second : Apart id channel between after) :
    Apart id channel before after where
  relays := second.relays.trans first.relays
  wire other different := (second.wire other different).trans (first.wire other different)
  queueOf other different := (second.queueOf other different).trans (first.queueOf other different)

theorem note (server : Server) (note : Note) : Apart id channel server (server.note note) :=
  ⟨rfl, fun _ _ => rfl, fun _ _ => rfl⟩

theorem send (server : Server) (sent : Sent) : Apart id channel server (server.send id sent) where
  relays := rfl
  wire other different := by rw [wire_send, if_neg (Ne.symm different), List.append_nil]
  queueOf _ _ := rfl

theorem leave (server : Server) (connection : Connection) :
    Apart id channel server (leave server connection) :=
  ⟨rfl, fun _ _ => rfl, fun _ _ => rfl⟩

theorem stop (server : Server) (connection : Connection) (writer : Writer) :
    Apart connection.id connection.channel server (stop server connection writer) where
  relays := rfl
  wire _ _ := rfl
  queueOf other different := by
    refine (Hub.queueOf_dropReceiver server.hub connection.channel other).trans ?_
    rw [if_neg different]

theorem closeWire (server : Server) (connection : Connection) (ending : Ending) :
    Apart connection.id connection.channel server (server.closeWire connection ending) := by
  cases ending with
  | vanished => exact refl server
  | faulted | closed reason =>
      rw [Server.closeWire]
      split
      · exact send server _
      · exact note server _

end Apart

/-! ## Writers -/

theorem write_of_idle {server : Server} {connection : Connection} (reaches : Bool)
    (idle : server.hub.queueOf connection.channel = []) :
    server.write connection reaches = server := by
  rw [write, if_pos (.inr idle)]

theorem write_of_stopped {server : Server} {connection : Connection} (reaches : Bool)
    (stopped : connection.writer ≠ .running) : server.write connection reaches = server := by
  rw [write, if_pos (.inl stopped)]

/-- A writer that reaches its client puts everything that waits on the wire. -/
theorem write_reaching {server : Server} {connection : Connection}
    (running : connection.writer = .running) :
    Apart connection.id connection.channel server (server.write connection true) ∧
      (server.write connection true).connections = server.connections ∧
      (server.write connection true).hub.queueOf connection.channel = [] ∧
      (server.write connection true).wire connection.id =
        server.wire connection.id ++ (server.hub.queueOf connection.channel).map .text := by
  by_cases idle : server.hub.queueOf connection.channel = []
  · rw [write_of_idle true idle, idle]
    exact ⟨.refl server, rfl, rfl, (List.append_nil _).symm⟩
  · have drained : server.write connection true =
        { server with
          hub := (server.hub.drain connection.channel).1
          sent := ((server.hub.queueOf connection.channel).map fun text =>
            (connection.id, .text text)).reverse ++ server.sent } := by
      rw [write, if_neg (by simp [running, idle]), if_pos rfl]
      rfl
    rw [drained]
    refine ⟨⟨rfl, ?_, ?_⟩, rfl, ?_, ?_⟩
    · intro id different
      simp [wire, List.filter_map, Function.comp_def, Ne.symm different]
    · intro channel different
      exact (Hub.queueOf_drain _ _ _).trans (if_neg different)
    · exact (Hub.queueOf_drain _ _ _).trans (if_pos rfl)
    · simp [wire, List.filter_map, Function.comp_def]

theorem write_failing {server : Server} {connection : Connection}
    (running : connection.writer = .running)
    (waiting : server.hub.queueOf connection.channel ≠ []) :
    server.write connection false =
      (stop server connection .failed).note (.writeFailed connection.id) := by
  rw [write, if_neg (by simp [running, waiting]), if_neg Bool.false_ne_true]
  rfl

theorem finishWriter_of_running {server : Server} (standing : Standing server)
    {connection : Connection} (member : connection ∈ server.connections)
    (ended : connection.isOpen = false) (running : connection.writer = .running)
    (ending : Ending) :
    server.finishWriter connection.id ending =
      (stop server connection .finished).closeWire connection ending := by
  have released := standing.not_isHeld member ended
  rw [finishWriter, standing.connection?_eq member]
  dsimp only
  rw [if_neg (by simp [running, released])]
  rfl

theorem finishWriter_of_stopped {server : Server} (standing : Standing server)
    {connection : Connection} (member : connection ∈ server.connections)
    (stopped : connection.writer ≠ .running) (ending : Ending) :
    server.finishWriter connection.id ending = server := by
  rw [finishWriter, standing.connection?_eq member]
  dsimp only
  rw [if_pos (.inl stopped)]

/-! ## Last words -/

def closing : Ending → List Sent
  | .closed reason => [.close (reason.map WebSocket.Close.answer)]
  | .faulted => [.close none]
  | .vanished => []

/-- What is put on the wire of a client at its end, if these texts still wait. Where some
do, only a client that broke the protocol gets them and a close: nothing can be sent any
more to one that asked to close or is gone. -/
def farewell (waiting : List String) (ending : Ending) : List Sent :=
  (if waiting = [] ∨ ending = .faulted then waiting.map .text ++ closing ending else []) ++
    if ending = .vanished then [] else [.eof]

def lastWriter (waiting : List String) (ending : Ending) : Writer :=
  if waiting = [] ∨ ending = .faulted then .finished else .failed

theorem wire_closeWire {server : Server} {connection : Connection}
    (writable : connection.isWritable = true) (ending : Ending) :
    (server.closeWire connection ending).wire connection.id =
      server.wire connection.id ++ closing ending := by
  cases ending with
  | vanished => exact (List.append_nil _).symm
  | faulted | closed reason =>
      rw [closeWire, if_pos writable, wire_send, if_pos rfl]
      rfl

theorem connections_closeWire (server : Server) (connection : Connection) (ending : Ending) :
    (server.closeWire connection ending).connections = server.connections := by
  cases ending with
  | vanished => rfl
  | faulted | closed reason =>
      rw [closeWire]
      split <;> rfl

theorem connections_stop_leave (server : Server) (connection : Connection) (writer : Writer) :
    (stop (leave server connection) connection writer).connections =
      (server.modify connection.id fun found =>
        { found with isOpen := false, writer := writer }).connections := by
  simp only [stop, leave, modify, List.map_map]
  refine List.map_congr_left fun found _ => ?_
  by_cases same : found.id = connection.id <;> simp [same]

section

variable {server : Server} (standing : Standing server) {connection : Connection}
  (member : connection ∈ server.connections) (running : connection.writer = .running)

include standing member running

/-- The last turn of a writer that can still do everything. -/
theorem last_turn_of_reaching (writable : connection.isWritable = true) (ending : Ending) :
    let served := ((leave server connection).write connection true).finishWriter
      connection.id ending
    Apart connection.id connection.channel server served ∧
      served.connections = (server.modify connection.id fun found =>
        { found with isOpen := false, writer := .finished }).connections ∧
      served.wire connection.id = server.wire connection.id ++
        ((server.hub.queueOf connection.channel).map .text ++ closing ending) := by
  intro served
  obtain ⟨apart, connections, _, wire⟩ :=
    @write_reaching (leave server connection) connection running
  have here : { connection with isOpen := false } ∈
      ((leave server connection).write connection true).connections := by
    rw [connections]
    exact mem_leave member
  have written : Standing ((leave server connection).write connection true) :=
    (standing.leave_standing member).write (mem_leave member) true
  have finishes : served = (stop ((leave server connection).write connection true)
      connection .finished).closeWire { connection with isOpen := false } ending :=
    finishWriter_of_running written here rfl running ending
  rw [finishes]
  refine ⟨?_, ?_, ?_⟩
  · exact ((Apart.leave server connection).trans apart).trans ((Apart.stop _ _ _).trans
      (Apart.closeWire _ _ _))
  · rw [connections_closeWire, ← connections_stop_leave server connection .finished]
    simp only [stop, modify, connections]
  · refine (wire_closeWire writable ending).trans ?_
    rw [wire_stop]
    exact (congrArg (· ++ closing ending) wire).trans (List.append_assoc _ _ _)

/-- The last turn of a writer that may do no more than answer a close. -/
theorem last_turn_of_failing {ending : Ending}
    (waiting : server.hub.queueOf connection.channel ≠ []) :
    let served := ((leave server connection).write connection false).finishWriter
      connection.id ending
    Apart connection.id connection.channel server served ∧
      served.connections = (server.modify connection.id fun found =>
        { found with isOpen := false, writer := .failed }).connections ∧
      served.wire connection.id = server.wire connection.id := by
  intro served
  have fails : (leave server connection).write connection false = _ :=
    @write_failing (leave server connection) connection running waiting
  have here : { connection with isOpen := false, writer := .failed } ∈
      ((leave server connection).write connection false).connections := by
    rw [fails]
    exact mem_modify.mpr ⟨_, mem_leave member, by rw [if_pos rfl]⟩
  have written : Standing ((leave server connection).write connection false) :=
    (standing.leave_standing member).write (mem_leave member) false
  have finishes : served = (leave server connection).write connection false :=
    finishWriter_of_stopped written here (nofun : Writer.failed ≠ .running) ending
  rw [finishes, fails]
  refine ⟨?_, ?_, rfl⟩
  · exact (Apart.leave server connection).trans ((Apart.stop _ _ _).trans (Apart.note _ _))
  · exact connections_stop_leave server connection .failed

theorem last_turn (writable : connection.isWritable = true) (ending : Ending) :
    let waiting := server.hub.queueOf connection.channel
    let served := ((leave server connection).write connection
      (connection.isWritable && ending = .faulted)).finishWriter connection.id ending
    Apart connection.id connection.channel server served ∧
      served.connections = (server.modify connection.id fun found =>
        { found with isOpen := false, writer := lastWriter waiting ending }).connections ∧
      served.wire connection.id = server.wire connection.id ++
        if waiting = [] ∨ ending = .faulted then waiting.map .text ++ closing ending else [] := by
  intro waiting
  by_cases able : waiting = [] ∨ ending = .faulted
  · have turn : (leave server connection).write connection
        (connection.isWritable && ending = .faulted) =
          (leave server connection).write connection true := by
      rcases able with idle | rfl
      · rw [@write_of_idle (leave server connection) connection _ idle,
          @write_of_idle (leave server connection) connection _ idle]
      · rw [writable]
        rfl
    rw [lastWriter, if_pos able, if_pos able, turn]
    exact last_turn_of_reaching standing member running writable ending
  · obtain ⟨busy, other⟩ := not_or.mp able
    have turn : (connection.isWritable && decide (ending = .faulted)) = false := by
      rw [decide_eq_false other, Bool.and_false]
    rw [lastWriter, if_neg able, if_neg able, turn, List.append_nil]
    exact last_turn_of_failing standing member running busy

/-- What the end of a connection comes to for its client and for all others. -/
theorem finish_says_farewell (writable : connection.isWritable = true) (ending : Ending) :
    let waiting := server.hub.queueOf connection.channel
    Apart connection.id connection.channel server (server.finish connection ending) ∧
      (server.finish connection ending).connections =
        (server.modify connection.id fun found =>
          { found with isOpen := false, writer := lastWriter waiting ending }).connections ∧
      (server.finish connection ending).wire connection.id =
        server.wire connection.id ++ farewell waiting ending := by
  intro waiting
  obtain ⟨apart, connections, wire⟩ := last_turn standing member running writable ending
  rw [finish_eq]
  dsimp only
  split
  · rename_i gone
    refine ⟨apart.trans (.note _ _), connections, ?_⟩
    rw [farewell, if_pos gone, List.append_nil]
    exact wire
  · rename_i told
    refine ⟨(apart.trans (.send _ .eof)).trans (.note _ _), connections, ?_⟩
    rw [wire_note, wire_send, if_pos rfl, farewell, if_neg told, ← List.append_assoc]
    exact congrArg (· ++ [.eof]) wire

end

end PipeCast.Server
