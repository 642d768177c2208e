import PipeCast.Proofs.Server.Acts

/-!
# Who is registered

At every moment the open connections whose writers run are registered, and only open
connections are. A writer that stops leaves its entry behind, for the next broadcast or the end
of the connection to remove, whichever comes first. So the roster may count a client too many
between broadcasts, and right after a broadcast it lists exactly those who are served.
-/

set_option autoImplicit false

namespace PipeCast.Server

namespace Connection

def entry (connection : Connection) : ClientId × Hub.ChannelId :=
  (connection.id, connection.channel)

/-- A connection is served while it is open and its writer runs. -/
def isServed (connection : Connection) : Bool :=
  connection.isOpen && connection.writer = .running

theorem isServed_iff {connection : Connection} :
    connection.isServed = true ↔ connection.isOpen = true ∧ connection.writer = .running := by
  simp [isServed]

end Connection

/-! ## What writers leave alone -/

/-- Nobody joins, leaves the registry or sends a message. -/
structure Aside (before after : Server) : Prop where
  registry : after.hub.registry = before.hub.registry
  begun : after.hub.begun = before.hub.begun
  length : after.connections.length = before.connections.length

namespace Aside

variable {before between after : Server}

theorem refl (server : Server) : Aside server server := ⟨rfl, rfl, rfl⟩

theorem trans (first : Aside before between) (second : Aside between after) :
    Aside before after where
  registry := second.registry.trans first.registry
  begun := second.begun.trans first.begun
  length := second.length.trans first.length

theorem stop (server : Server) (connection : Connection) (writer : Writer) :
    Aside server (stop server connection writer) :=
  ⟨rfl, rfl, List.length_map _⟩

theorem write (server : Server) (connection : Connection) (reaches : Bool) :
    Aside server (server.write connection reaches) := by
  unfold Server.write
  split
  · exact refl server
  · cases reaches with
    | true => exact ⟨rfl, rfl, rfl⟩
    | false => exact (stop server connection .failed).trans ⟨rfl, rfl, rfl⟩

theorem closeWire (server : Server) (connection : Connection) (ending : Ending) :
    Aside server (server.closeWire connection ending) := by
  cases ending with
  | vanished => exact refl server
  | faulted | closed reason =>
      rw [Server.closeWire]
      split <;> exact ⟨rfl, rfl, rfl⟩

theorem finishWriter (server : Server) (id : ClientId) (ending : Ending) :
    Aside server (server.finishWriter id ending) := by
  unfold Server.finishWriter
  cases found : server.connection? id with
  | none => exact refl server
  | some connection =>
      obtain ⟨_, rfl⟩ := mem_of_connection? found
      dsimp only
      split
      · exact refl server
      · exact (stop server connection .finished).trans (closeWire _ connection ending)

end Aside

theorem finish_removes (server : Server) (connection : Connection) (ending : Ending) :
    let after := server.finish connection ending
    after.hub.registry = (server.hub.registry.withdraw connection.id connection.channel).1 ∧
      after.hub.begun = server.hub.begun ∧
      after.connections.length = server.connections.length := by
  intro after
  have aside := (Aside.write (leave server connection) connection
    (connection.isWritable && ending = .faulted)).trans
    (Aside.finishWriter _ connection.id ending)
  have length : (leave server connection).connections.length = server.connections.length :=
    List.length_map _
  have ended : Aside (((leave server connection).write connection
      (connection.isWritable && ending = .faulted)).finishWriter connection.id ending) after := by
    rw [show after = _ from finish_eq server connection ending]
    dsimp only
    split <;> exact ⟨rfl, rfl, rfl⟩
  have whole := aside.trans ended
  exact ⟨whole.registry, whole.begun, whole.length.trans length⟩

/-! ## Events -/

theorem exists_act_of_ended (server : Server) {event : Event} {id : ClientId}
    (ended : event.ended? = some id) :
    ∃ act : Connection → Server, server.handle event = server.onOpen id act ∧
      ∀ connection, let after := act connection
        after.hub.registry = (server.hub.registry.withdraw connection.id connection.channel).1 ∧
        after.hub.begun = server.hub.begun ∧
        after.connections.length = server.connections.length := by
  cases event with
  | received found inbound =>
      cases inbound with
      | close reason =>
          cases ended
          exact ⟨_, rfl, fun connection => finish_removes server connection (.closed reason)⟩
      | _ => cases ended
  | readFails found =>
      cases ended
      exact ⟨_, rfl, fun connection => finish_removes (server.note _) connection .faulted⟩
  | vanished found =>
      cases ended
      exact ⟨_, rfl, fun connection => finish_removes (server.note _) connection .vanished⟩
  | _ => cases ended

/-- An event sends a message as the last thing that it does, or sends none. -/
theorem handle_cases (server : Server) (event : Event) :
    (∃ (ready : Server) (message : Message), server.handle event = ready.broadcast message ∧
        ready.connections.length =
          server.connections.length + if event = .connect then 1 else 0) ∨
      (event ≠ .connect ∧ (server.handle event).hub.begun = server.hub.begun ∧
        (server.handle event).connections.length = server.connections.length) := by
  cases ended : event.ended? with
  | some id =>
      have other : event ≠ .connect := by
        rintro rfl
        cases ended
      obtain ⟨act, handled, acts⟩ := exists_act_of_ended server ended
      rcases onOpen_cases server id act with ⟨same, _⟩ | ⟨connection, _, _, same⟩
      · rw [handled, same]
        exact .inr ⟨other, rfl, rfl⟩
      · rw [handled, same]
        exact .inr ⟨other, (acts connection).2⟩
  | none =>
      cases event with
      | connect => exact .inl ⟨_, _, connect_eq server, List.length_append⟩
      | line text => exact .inl ⟨server, _, rfl, rfl⟩
      | received id inbound =>
          rcases onOpen_cases server id _ with ⟨same, _⟩ | ⟨connection, _, _, same⟩
          · exact .inr ⟨nofun, congrArg (·.hub.begun) same, congrArg (·.connections.length) same⟩
          · cases inbound with
            | text message =>
                by_cases relays : server.relaysClients = true
                · exact .inl ⟨server.note _, _, same.trans (if_pos relays), rfl⟩
                · have unsaid := same.trans (if_neg relays)
                  exact .inr ⟨nofun, congrArg (·.hub.begun) unsaid,
                    congrArg (·.connections.length) unsaid⟩
            | binary | ping | pong =>
                exact .inr ⟨nofun, congrArg (·.hub.begun) same,
                  congrArg (·.connections.length) same⟩
            | close reason => cases ended
      | writesFail id =>
          rcases onOpen_cases server id _ with ⟨same, _⟩ | ⟨connection, _, _, same⟩
          · exact .inr ⟨nofun, congrArg (·.hub.begun) same, congrArg (·.connections.length) same⟩
          · exact .inr ⟨nofun, congrArg (·.hub.begun) same,
              (congrArg (·.connections.length) same).trans (List.length_map _)⟩
      | readFails | vanished => cases ended

/-! ## Moves -/

theorem length_move (server : Server) (made : Move) :
    (move server made).connections.length =
      server.connections.length + if made = .event .connect then 1 else 0 := by
  cases made with
  | event event =>
      rcases handle_cases server event with ⟨ready, message, said, length⟩ | ⟨other, _, length⟩
      · rw [move, said]
        simpa [Server.broadcast] using length
      · rw [move, length, if_neg (by simpa using other), Nat.add_zero]
  | turn id =>
      rw [move]
      cases server.connection? id with
      | none => rfl
      | some connection => exact (Aside.write server connection _).length

theorem begun_turn (server : Server) (id : ClientId) :
    (move server (.turn id)).hub.begun = server.hub.begun := by
  rw [move]
  cases server.connection? id with
  | none => rfl
  | some connection => exact (Aside.write server connection _).begun

/-! ## Acts -/

theorem length_perform (server : Server) (act : Act) :
    (server.perform act).connections.length =
      server.connections.length + if act = .move (.event .connect) then 1 else 0 := by
  rcases perform_cases server act with ⟨made, same, joins, _⟩ | ⟨other, _, sent, same⟩
  · rw [same, length_move]
    simp only [joins]
  · rw [same, if_neg other]
    rfl

namespace Standing

variable {server : Server}

theorem after_move (standing : Standing server) (made : Move)
    (few : made = .event .connect → server.connections.length + 1 < UInt64.size) :
    Standing (move server made) := by
  cases made with
  | event event => exact standing.handle event fun same => few (same ▸ rfl)
  | turn id =>
      rw [move]
      cases found : server.connection? id with
      | none => exact standing
      | some connection => exact standing.write (mem_of_connection? found).1 _

theorem after_act (standing : Standing server) (act : Act)
    (few : act = .move (.event .connect) → server.connections.length + 1 < UInt64.size) :
    Standing (server.perform act) := by
  rcases perform_cases server act with ⟨made, same, joins, _⟩ | ⟨_, _, sent, same⟩
  · rw [same]
    exact standing.after_move made fun joined => few (joins.mp joined)
  · rw [same]
    exact standing.of_hub rfl rfl rfl rfl rfl rfl rfl fun _ => .inl rfl

theorem foldl (standing : Standing server) {acts : List Act}
    (few : server.connections.length + acts.count (.move (.event .connect)) < UInt64.size) :
    Standing (acts.foldl perform server) := by
  induction acts generalizing server with
  | nil => exact standing
  | cons act acts ih =>
      obtain ⟨room, fewLater⟩ := room_of_few few
      refine ih (standing.after_act act room) ?_
      rwa [length_perform]

/-! ## The roster -/

theorem roster_eq_served (standing : Standing server)
    (swept : ∀ entry ∈ server.hub.registry.roster, server.hub.isLive entry.2 = true) :
    server.hub.registry.roster =
      (server.connections.filter Connection.isServed).map Connection.entry := by
  have ascending := server.hub.registry.ascending
  have ordered : Hub.Roster.IsAscending
      ((server.connections.filter Connection.isServed).map Connection.entry) :=
    List.pairwise_map.mpr (standing.pairwise_lt.filter _)
  refine ascending.ext ordered fun entry => ⟨fun given => ?_, fun given => ?_⟩
  · obtain ⟨connection, member, isOpen, id, channel⟩ :=
      standing.entries entry.1 entry.2 (Hub.Roster.find?_of_mem ascending given)
    have live := swept entry given
    rw [← channel, standing.live connection member, decide_eq_true_eq] at live
    refine List.mem_map.mpr ⟨connection, List.mem_filter.mpr ⟨member, ?_⟩, Prod.ext id channel⟩
    exact Connection.isServed_iff.mpr ⟨isOpen, live⟩
  · obtain ⟨connection, served, rfl⟩ := List.mem_map.mp given
    obtain ⟨member, serves⟩ := List.mem_filter.mp served
    obtain ⟨isOpen, running⟩ := Connection.isServed_iff.mp serves
    exact Hub.Roster.mem_of_find? (standing.registered connection member isOpen running)

theorem roster_of_broadcast {ready : Server} {message : Message}
    (standing : Standing (ready.broadcast message)) :
    (ready.broadcast message).hub.registry.roster =
      ((ready.broadcast message).connections.filter Connection.isServed).map
        Connection.entry := by
  refine standing.roster_eq_served fun entry given => ?_
  have found := Hub.Roster.find?_of_mem (ready.broadcast message).hub.registry.ascending given
  change (ready.hub.broadcast message).1.registry.roster.find? entry.1 = some entry.2 at found
  rw [Hub.find?_broadcast] at found
  change (ready.hub.broadcast message).1.isLive entry.2 = true
  rw [Hub.isLive_broadcast]
  exact (Option.filter_eq_some_iff.mp found).2

theorem withdraw_own (standing : Standing server) {connection : Connection}
    (member : connection ∈ server.connections) :
    let registry := server.hub.registry
    (registry.withdraw connection.id connection.channel).1.roster =
        registry.roster.erase connection.id ∧
      (registry.roster.find? connection.id = none →
        (registry.withdraw connection.id connection.channel).1 = registry) := by
  intro registry
  cases found : registry.roster.find? connection.id with
  | none =>
      have kept := Hub.Roster.erase_of_find?_eq_none registry.ascending found
      simp [Hub.Registry.withdraw, found, kept]
  | some channel =>
      have own := standing.channel_of_entry member found
      simp [Hub.Registry.withdraw, Hub.Registry.unregister, found, own]

theorem roster_of_ended (standing : Standing server) {event : Event} {id : ClientId}
    (ended : event.ended? = some id) :
    (server.handle event).hub.registry.roster = server.hub.registry.roster.erase id ∧
      (server.hub.registry.roster.find? id = none →
        (server.handle event).hub.registry = server.hub.registry) := by
  obtain ⟨act, handled, acts⟩ := exists_act_of_ended server ended
  rcases onOpen_cases server id act with ⟨same, closed⟩ | ⟨connection, found, _, same⟩
  · rw [handled, same]
    refine ⟨?_, fun _ => rfl⟩
    refine (Hub.Roster.erase_of_find?_eq_none server.hub.registry.ascending ?_).symm
    refine Option.eq_none_iff_forall_ne_some.mpr fun channel registered => ?_
    obtain ⟨connection, member, isOpen, rfl, _⟩ := standing.entries id channel registered
    rw [closed connection (standing.connection?_eq member)] at isOpen
    cases isOpen
  · obtain ⟨member, rfl⟩ := mem_of_connection? found
    rw [handled, same, (acts connection).1]
    exact standing.withdraw_own member

/-- The roster right after an act that sends a message. -/
theorem roster_of_begun {act : Act} (standing : Standing (server.perform act))
    (began : server.hub.begun < (server.perform act).hub.begun) :
    (server.perform act).hub.registry.roster =
      ((server.perform act).connections.filter Connection.isServed).map Connection.entry := by
  rcases perform_cases server act with ⟨made, same, _⟩ | ⟨_, _, sent, same⟩
  · rw [same] at standing began ⊢
    cases made with
    | turn id => exact absurd (begun_turn server id) (Nat.ne_of_gt began)
    | event event =>
        rcases handle_cases server event with ⟨ready, message, said, _⟩ | ⟨_, unsaid, _⟩
        · rw [show move server (.event event) = ready.broadcast message from said] at standing ⊢
          exact standing.roster_of_broadcast
        · exact absurd unsaid (Nat.ne_of_gt began)
  · rw [same] at began
    exact absurd began (Nat.lt_irrefl _)

theorem roster_of_ended_by (standing : Standing server) {act : Act} {id : ClientId}
    (ended : server.ended? act = some id) :
    (server.perform act).hub.registry.roster = server.hub.registry.roster.erase id ∧
      (server.hub.registry.roster.find? id = none →
        (server.perform act).hub.registry = server.hub.registry) := by
  rcases perform_cases server act with ⟨made, same, _, ends⟩ | ⟨_, nobody, _⟩
  · obtain ⟨event, rfl, ended⟩ := ends id ended
    rw [same]
    exact standing.roster_of_ended ended
  · rw [nobody] at ended
    cases ended

end Standing

/-- At every moment whoever is served is registered under the number and with the channel of
its connection, and every entry is that of an open connection. Right after a broadcast the
roster lists those who are served and nobody else. The health of the server shows how many
entries there are. The end of a connection, be it by a ping that cannot be answered, erases
what stands under its number and touches nothing else, and if a broadcast has erased it already
nothing changes. -/
theorem roster_lists_served (relays : Bool) {acts : List Act}
    (few : acts.count (.move (.event .connect)) < UInt64.size) :
    let server := acts.foldl perform (Server.fresh relays)
    let roster := server.hub.registry.roster
    let shown := "\x7b\"clients\":" ++ toString roster.length ++ ",\"status\":\"ok\"\x7d"
    (∀ connection ∈ server.connections, connection.isServed = true →
      connection.entry ∈ roster) ∧
    (∀ entry ∈ roster, ∃ connection ∈ server.connections,
      connection.isOpen = true ∧ connection.entry = entry) ∧
    (∀ earlier last, acts = earlier ++ [last] →
      (earlier.foldl perform (Server.fresh relays)).hub.begun < server.hub.begun →
        roster = (server.connections.filter Connection.isServed).map Connection.entry) ∧
    (∀ canUpgrade request, request.method = "GET" → request.pathOver canUpgrade = .ok "/health" →
      Http.respond server.clients canUpgrade request =
          ⟨200, [("content-type", "application/json")], shown⟩ ∧
        Http.respondToAny server.clients canUpgrade request =
          ⟨200, ("content-type", "application/json") :: Http.sharingHeaders, shown⟩) ∧
    ∀ act id, server.ended? act = some id →
      (server.perform act).hub.registry.roster = roster.erase id ∧
      (roster.find? id = none → (server.perform act).hub.registry = server.hub.registry) := by
  intro server roster shown
  have standing : Standing server :=
    (Standing.fresh relays).foldl (by rwa [Server.fresh, List.length_nil, Nat.zero_add])
  refine ⟨?_, ?_, ?_, ?_, fun act id ended => standing.roster_of_ended_by ended⟩
  · intro connection member served
    obtain ⟨isOpen, running⟩ := Connection.isServed_iff.mp served
    exact Hub.Roster.mem_of_find? (standing.registered connection member isOpen running)
  · intro entry given
    obtain ⟨connection, member, isOpen, id, channel⟩ := standing.entries entry.1 entry.2
      (Hub.Roster.find?_of_mem server.hub.registry.ascending given)
    exact ⟨connection, member, isOpen, Prod.ext id channel⟩
  · rintro earlier last rfl began
    have whole : server = (earlier.foldl perform (Server.fresh relays)).perform last :=
      List.foldl_append
    rw [whole] at standing began
    simp only [roster, whole]
    exact standing.roster_of_begun began
  · intro canUpgrade request method path
    have counted : server.clients = roster.length := rfl
    constructor
    · simp only [Http.respond, path, Http.respondAt, method, counted]
      rfl
    · simp only [Http.respondToAny, path, Http.respondAt, method, counted]
      rfl

/-- A client whose writer has stopped is registered until the next broadcast removes it, and
its end then changes nothing. Another to whom nothing can be written is registered until its
next ping. -/
theorem stopped_writer_removed_once :
    let earlier := [Act.move (.event .connect), .move (.event .connect), .move (.turn 1),
      .move (.turn 2), .move (.event (.writesFail 1)), .move (.event (.line "one")),
      .move (.turn 1), .move (.event (.writesFail 2))]
    let acts := earlier ++ [.move (.event (.line "two"))]
    let before := earlier.foldl perform (Server.fresh false)
    let server := acts.foldl perform (Server.fresh false)
    let ping := Act.move (.event (.received 2 (.ping [1])))
    acts.count (.move (.event .connect)) < UInt64.size ∧
      before.hub.registry.roster = [(1, 0), (2, 1)] ∧
      before.hub.begun < server.hub.begun ∧
      server.hub.registry.roster =
        (server.connections.filter Connection.isServed).map Connection.entry ∧
      (server.connections.filter Connection.isServed).map Connection.entry = [(2, 1)] ∧
      (Http.respond server.clients false ⟨"GET", "/health", []⟩).body =
        "\x7b\"clients\":1,\"status\":\"ok\"\x7d" ∧
      server.hub.registry.roster.find? 1 = none ∧
      (server.perform (.move (.event (.vanished 1)))).hub.registry = server.hub.registry ∧
      server.ended? ping = some 2 ∧ (server.perform ping).hub.registry.roster = [] := by
  intro earlier acts before server ping
  have few : acts.count (.move (.event .connect)) < UInt64.size := by decide
  obtain ⟨_, _, swept, health, ended⟩ := roster_lists_served false few
  have began : before.hub.begun < server.hub.begun := by decide
  have absent : server.hub.registry.roster.find? 1 = none := by decide
  have unanswerable : server.ended? ping = some 2 := by decide
  have left : server.hub.registry.roster = [(2, 1)] := by decide
  have shown := (health false ⟨"GET", "/health", []⟩ rfl rfl).1
  rw [left] at shown
  refine ⟨few, by decide, began, swept earlier _ rfl began, by decide, ?_, absent,
    (ended (.move (.event (.vanished 1))) 1 rfl).2 absent, unanswerable, ?_⟩
  · rw [shown]
    decide
  · rw [(ended ping 2 unanswerable).1, left]
    decide

end PipeCast.Server
