import Mathlib.Data.List.Nodup
import PipeCast.Proofs.Hub.Alone
import PipeCast.Server.Basic

/-!
# The standing of connections

What the hub knows of the connections of a server, whatever has happened to them. The
number and the channel of a connection follow from its place. Handles and entries belong
to open connections, a receiver exists as long as its writer runs, and an open connection
whose writer runs is registered.
-/

set_option autoImplicit false

namespace PipeCast.Server

structure Standing (server : Server) : Prop where
  few : server.connections.length < UInt64.size
  numbered : ∀ (place : Nat) (connection : Connection),
    server.connections[place]? = some connection →
      connection.id = UInt64.ofNat (place + 1) ∧ connection.channel = place
  next : server.hub.registry.next = UInt64.ofNat (server.connections.length + 1)
  size : server.hub.channels.size = server.connections.length
  kept : server.hub.kept = []
  underway : server.hub.underway = []
  handles : ∀ handle ∈ server.hub.handles, ∃ connection ∈ server.connections,
    connection.isOpen = true ∧ handle = (.connection connection.id, connection.channel)
  entries : ∀ (id : ClientId) (channel : Hub.ChannelId),
    server.hub.registry.roster.find? id = some channel → ∃ connection ∈ server.connections,
      connection.isOpen = true ∧ connection.id = id ∧ connection.channel = channel
  registered : ∀ connection ∈ server.connections, connection.isOpen = true →
    connection.writer = .running →
      server.hub.registry.roster.find? connection.id = some connection.channel
  live : ∀ connection ∈ server.connections,
    server.hub.isLive connection.channel = decide (connection.writer = .running)

/-! ## Parts of the operations -/

/-- What a writer leaves that stops. -/
def stop (server : Server) (connection : Connection) (writer : Writer) : Server :=
  { server with hub := server.hub.dropReceiver connection.channel }.modify connection.id
    fun found => { found with writer := writer }

/-- What the end of a connection does before its writer acts. -/
def leave (server : Server) (connection : Connection) : Server :=
  { server with
    hub := (server.hub.withdraw .direct connection.id connection.channel).1.dropHandle
      (.connection connection.id) }.modify connection.id fun found => { found with isOpen := false }

/-- A server with a new connection, before anything is said of it. -/
def enroll (server : Server) : Server :=
  { server with
    hub := ((server.hub.issue.1.openChannel (.connection server.hub.issue.2)).1.register
      server.hub.issue.2 server.hub.channels.size)
    connections := server.connections ++
      [⟨server.hub.issue.2, server.hub.channels.size, true, .running, true⟩] }

theorem connect_eq (server : Server) :
    server.connect.1 = ((enroll server).note
      (.connected server.hub.issue.2 (enroll server).clients)).broadcast .joined := rfl

theorem finish_eq (server : Server) (connection : Connection) (ending : Ending) :
    server.finish connection ending =
      let served := ((leave server connection).write connection
        (connection.isWritable && ending = .faulted)).finishWriter connection.id ending
      let ended := if ending = .vanished then served else served.send connection.id .eof
      ended.note (.disconnected connection.id ended.clients) := rfl

theorem mem_modify {server : Server} {id : ClientId} {change : Connection → Connection}
    {connection : Connection} :
    connection ∈ (server.modify id change).connections ↔
      ∃ found ∈ server.connections,
        connection = if found.id = id then change found else found := by
  rw [modify, List.mem_map]
  exact ⟨fun ⟨found, member, same⟩ => ⟨found, member, same.symm⟩,
    fun ⟨found, member, same⟩ => ⟨found, member, same.symm⟩⟩

theorem mem_leave {server : Server} {connection : Connection}
    (member : connection ∈ server.connections) :
    { connection with isOpen := false } ∈ (leave server connection).connections :=
  mem_modify.mpr ⟨connection, member, by rw [if_pos rfl]⟩

theorem mem_of_connection? {server : Server} {id : ClientId} {connection : Connection}
    (found : server.connection? id = some connection) :
    connection ∈ server.connections ∧ connection.id = id :=
  ⟨List.mem_of_find?_eq_some found, by simpa using List.find?_some found⟩

namespace Standing

variable {server : Server}

theorem fresh (relaysClients : Bool) : Standing (Server.fresh relaysClients) where
  few := (by decide : 0 < UInt64.size)
  numbered := nofun
  next := rfl
  size := rfl
  kept := rfl
  underway := rfl
  handles := nofun
  entries := nofun
  registered := nofun
  live := nofun

/-! ## Places -/

theorem getElem?_channel (standing : Standing server) {connection : Connection}
    (member : connection ∈ server.connections) :
    server.connections[connection.channel]? = some connection := by
  obtain ⟨place, below, found⟩ := List.mem_iff_getElem.mp member
  have there := List.getElem?_eq_some_iff.mpr ⟨below, found⟩
  rw [(standing.numbered place connection there).2]
  exact there

theorem toNat_id (standing : Standing server) {connection : Connection}
    (member : connection ∈ server.connections) :
    connection.id.toNat = connection.channel + 1 := by
  obtain ⟨place, below, found⟩ := List.mem_iff_getElem.mp member
  have there := List.getElem?_eq_some_iff.mpr ⟨below, found⟩
  obtain ⟨id, channel⟩ := standing.numbered place connection there
  have few := standing.few
  rw [id, channel]
  exact UInt64.toNat_ofNat_of_lt' (by omega)

theorem channel_eq_of_id_eq (standing : Standing server) {first second : Connection}
    (firstMember : first ∈ server.connections) (secondMember : second ∈ server.connections)
    (same : first.id = second.id) : first.channel = second.channel := by
  have numbers := standing.toNat_id firstMember
  rw [same, standing.toNat_id secondMember] at numbers
  exact (Nat.succ.inj numbers).symm

theorem eq_of_channel_eq (standing : Standing server) {first second : Connection}
    (firstMember : first ∈ server.connections) (secondMember : second ∈ server.connections)
    (same : first.channel = second.channel) : first = second := by
  have there := standing.getElem?_channel firstMember
  rw [same, standing.getElem?_channel secondMember] at there
  exact (Option.some.inj there).symm

theorem eq_of_id_eq (standing : Standing server) {first second : Connection}
    (firstMember : first ∈ server.connections) (secondMember : second ∈ server.connections)
    (same : first.id = second.id) : first = second :=
  standing.eq_of_channel_eq firstMember secondMember
    (standing.channel_eq_of_id_eq firstMember secondMember same)

theorem connection?_eq (standing : Standing server) {connection : Connection}
    (member : connection ∈ server.connections) :
    server.connection? connection.id = some connection := by
  cases found : server.connection? connection.id with
  | none =>
      have different := List.find?_eq_none.mp found connection member
      simp at different
  | some other =>
      have same : other.id = connection.id := by simpa using List.find?_some found
      rw [standing.eq_of_id_eq (List.mem_of_find?_eq_some found) member same]

theorem channel_of_entry (standing : Standing server) {connection : Connection}
    (member : connection ∈ server.connections) {channel : Hub.ChannelId}
    (found : server.hub.registry.roster.find? connection.id = some channel) :
    channel = connection.channel := by
  obtain ⟨other, present, _, id, rfl⟩ := standing.entries _ _ found
  rw [standing.eq_of_id_eq present member id]

/-- An open connection whose writer runs is registered once. -/
theorem countP_channel (standing : Standing server) {connection : Connection}
    (member : connection ∈ server.connections) (isOpen : connection.isOpen = true)
    (running : connection.writer = .running) :
    (server.hub.registry.roster.countP fun entry => entry.2 = connection.channel) = 1 := by
  have ascending := server.hub.registry.ascending
  have present := Hub.Roster.mem_of_find? (standing.registered connection member isOpen running)
  rw [← List.count_eq_one_of_mem ascending.nodup present]
  refine List.countP_congr fun entry given => ?_
  constructor
  · intro same
    obtain ⟨other, otherMember, _, id, channel⟩ :=
      standing.entries entry.1 entry.2 (Hub.Roster.find?_of_mem ascending given)
    have equal : other = connection := by
      refine standing.eq_of_channel_eq otherMember member (channel.trans ?_)
      simpa using same
    rw [beq_iff_eq, ← equal]
    exact Prod.ext id.symm channel.symm
  · intro same
    simpa using congrArg Prod.snd (beq_iff_eq.mp same)

/-- A connection that has ended has left no handle of its channel. -/
theorem not_isHeld (standing : Standing server) {connection : Connection}
    (member : connection ∈ server.connections) (ended : connection.isOpen = false) :
    server.hub.isHeld connection.channel = false := by
  have absent : ∀ other ∈ server.connections, other.isOpen = true →
      other.channel ≠ connection.channel := by
    intro other present isOpen same
    rw [standing.eq_of_channel_eq present member same, ended] at isOpen
    cases isOpen
  have handles : server.hub.handles.any (fun handle => handle.2 = connection.channel) = false := by
    refine List.any_eq_false.mpr fun handle given => ?_
    obtain ⟨other, present, isOpen, rfl⟩ := standing.handles handle given
    simpa using absent other present isOpen
  have entries : server.hub.registry.roster.holds connection.channel = false := by
    refine List.any_eq_false.mpr fun entry given => ?_
    obtain ⟨other, present, isOpen, _, channel⟩ :=
      standing.entries entry.1 entry.2
        (Hub.Roster.find?_of_mem server.hub.registry.ascending given)
    simpa [← channel] using absent other present isOpen
  rw [Hub.isHeld, handles, entries, standing.kept, standing.underway]
  rfl

/-! ## Changes of the hub -/

/-- A change that moves no connection and drops entries of dead channels only. -/
theorem of_hub (standing : Standing server) {changed : Server}
    (connections : changed.connections = server.connections)
    (next : changed.hub.registry.next = server.hub.registry.next)
    (size : changed.hub.channels.size = server.hub.channels.size)
    (handles : changed.hub.handles = server.hub.handles)
    (kept : changed.hub.kept = server.hub.kept)
    (underway : changed.hub.underway = server.hub.underway)
    (live : changed.hub.isLive = server.hub.isLive)
    (entries : ∀ id, changed.hub.registry.roster.find? id =
        server.hub.registry.roster.find? id ∨
      changed.hub.registry.roster.find? id =
        (server.hub.registry.roster.find? id).filter server.hub.isLive) :
    Standing changed where
  few := by rw [connections]; exact standing.few
  numbered := by rw [connections]; exact standing.numbered
  next := by rw [next, connections]; exact standing.next
  size := by rw [size, connections]; exact standing.size
  kept := kept.trans standing.kept
  underway := underway.trans standing.underway
  handles := by rw [handles, connections]; exact standing.handles
  entries := by
    intro id channel found
    rw [connections]
    rcases entries id with same | filtered
    · exact standing.entries id channel (same ▸ found)
    · rw [filtered] at found
      exact standing.entries id channel (Option.filter_eq_some_iff.mp found).1
  registered := by
    intro connection member isOpen running
    rw [connections] at member
    have found := standing.registered connection member isOpen running
    rcases entries connection.id with same | filtered
    · rw [same, found]
    · rw [filtered, found, Option.filter_some, standing.live connection member]
      simp [running]
  live := by rw [live, connections]; exact standing.live

theorem broadcast (standing : Standing server) (message : Message) :
    Standing (server.broadcast message) :=
  standing.of_hub rfl (Hub.next_broadcast _ _) (Hub.size_channels_broadcast _ _)
    (Hub.handles_broadcast _ _) (Hub.kept_broadcast _ _) (Hub.underway_broadcast _ _)
    (Hub.isLive_broadcast _ _) fun id => .inr (Hub.find?_broadcast _ _ id)

theorem note (standing : Standing server) (note : Note) : Standing (server.note note) :=
  standing.of_hub rfl rfl rfl rfl rfl rfl rfl fun _ => .inl rfl

theorem send (standing : Standing server) (id : ClientId) (sent : Sent) :
    Standing (server.send id sent) :=
  standing.of_hub rfl rfl rfl rfl rfl rfl rfl fun _ => .inl rfl

/-! ## Changes at one connection -/

/-- A change of one connection, and of what the hub knows of it. -/
theorem alter (standing : Standing server) {connection : Connection}
    (member : connection ∈ server.connections) (change : Connection → Connection)
    (identity : (change connection).id = connection.id ∧
      (change connection).channel = connection.channel)
    {changed : Server}
    (connections : changed.connections = (server.modify connection.id change).connections)
    (next : changed.hub.registry.next = server.hub.registry.next)
    (size : changed.hub.channels.size = server.hub.channels.size)
    (kept : changed.hub.kept = server.hub.kept)
    (underway : changed.hub.underway = server.hub.underway)
    (handles : ∀ handle ∈ changed.hub.handles, handle ∈ server.hub.handles ∧
      ((change connection).isOpen = connection.isOpen ∨ handle.1 ≠ .connection connection.id))
    (entries : ∀ id channel, changed.hub.registry.roster.find? id = some channel →
      server.hub.registry.roster.find? id = some channel ∧
        ((change connection).isOpen = connection.isOpen ∨ id ≠ connection.id))
    (others : ∀ id, id ≠ connection.id →
      changed.hub.registry.roster.find? id = server.hub.registry.roster.find? id)
    (own : (change connection).isOpen = true → (change connection).writer = .running →
      changed.hub.registry.roster.find? connection.id = some connection.channel)
    (live : ∀ channel, changed.hub.isLive channel =
      if channel = connection.channel then decide ((change connection).writer = .running)
      else server.hub.isLive channel) :
    Standing changed := by
  have unaltered : ∀ other ∈ server.connections, other.id = connection.id → other = connection :=
    fun other present same => standing.eq_of_id_eq present member same
  have remains : ∀ other ∈ server.connections, other.isOpen = true →
      (change connection).isOpen = connection.isOpen ∨ other.id ≠ connection.id →
      ∃ found ∈ changed.connections,
        found.isOpen = true ∧ found.id = other.id ∧ found.channel = other.channel := by
    intro other present isOpen either
    refine ⟨_, connections ▸ mem_modify.mpr ⟨other, present, rfl⟩, ?_⟩
    by_cases same : other.id = connection.id
    · rw [if_pos same]
      have equal := unaltered other present same
      subst equal
      exact ⟨(either.resolve_right fun different => different same).trans isOpen, identity⟩
    · rw [if_neg same]
      exact ⟨isOpen, rfl, rfl⟩
  have length : changed.connections.length = server.connections.length := by
    rw [connections, modify, List.length_map]
  constructor
  · rw [length]
    exact standing.few
  · intro place found there
    rw [connections, modify, List.getElem?_map] at there
    obtain ⟨before, beforeThere, rfl⟩ := Option.map_eq_some_iff.mp there
    obtain ⟨id, channel⟩ := standing.numbered place before beforeThere
    by_cases same : before.id = connection.id
    · have equal := unaltered before (List.mem_of_getElem? beforeThere) same
      subst equal
      rw [if_pos rfl, identity.1, identity.2]
      exact ⟨id, channel⟩
    · rw [if_neg same]
      exact ⟨id, channel⟩
  · rw [next, length]
    exact standing.next
  · rw [size, length]
    exact standing.size
  · exact kept.trans standing.kept
  · exact underway.trans standing.underway
  · intro handle given
    obtain ⟨before, either⟩ := handles handle given
    obtain ⟨other, present, isOpen, rfl⟩ := standing.handles handle before
    obtain ⟨found, foundMember, foundOpen, id, channel⟩ := remains other present isOpen
      (either.imp_right fun different same => different (congrArg _ same))
    exact ⟨found, foundMember, foundOpen, by rw [id, channel]⟩
  · intro id channel found
    obtain ⟨before, either⟩ := entries id channel found
    obtain ⟨other, present, isOpen, rfl, rfl⟩ := standing.entries id channel before
    exact remains other present isOpen either
  · intro found foundMember isOpen running
    obtain ⟨other, present, rfl⟩ := mem_modify.mp (connections ▸ foundMember)
    by_cases same : other.id = connection.id
    · have equal := unaltered other present same
      subst equal
      rw [if_pos rfl] at isOpen running ⊢
      rw [identity.1, identity.2]
      exact own isOpen running
    · rw [if_neg same] at isOpen running ⊢
      rw [others _ same]
      exact standing.registered other present isOpen running
  · intro found foundMember
    obtain ⟨other, present, rfl⟩ := mem_modify.mp (connections ▸ foundMember)
    by_cases same : other.id = connection.id
    · have equal := unaltered other present same
      subst equal
      rw [if_pos rfl, identity.2, live, if_pos rfl]
    · have apart : other.channel ≠ connection.channel := by
        intro channel
        exact same (congrArg Connection.id (standing.eq_of_channel_eq present member channel))
      rw [if_neg same, live, if_neg apart]
      exact standing.live other present

/-! ## Writers -/

theorem stop_standing (standing : Standing server) {connection : Connection}
    (member : connection ∈ server.connections) {writer : Writer} (stopped : writer ≠ .running) :
    Standing (stop server connection writer) := by
  refine standing.alter member (fun found => { found with writer := writer }) ⟨rfl, rfl⟩
    rfl rfl (Hub.size_channels_dropReceiver _ _) rfl rfl (fun _ given => ⟨given, .inl rfl⟩)
    (fun _ _ found => ⟨found, .inl rfl⟩) (fun _ _ => rfl)
    (fun _ running => absurd running stopped) fun channel => ?_
  refine (Hub.isLive_dropReceiver _ _ channel).trans ?_
  by_cases same : channel = connection.channel <;> simp [same, stopped]

theorem write (standing : Standing server) {connection : Connection}
    (member : connection ∈ server.connections) (reaches : Bool) :
    Standing (server.write connection reaches) := by
  unfold Server.write
  split
  · exact standing
  · cases reaches with
    | true =>
        exact standing.of_hub rfl rfl (Hub.size_channels_drain _ _) rfl rfl rfl
          (funext fun _ => Hub.isLive_drain _ _ _) fun _ => .inl rfl
    | false =>
        exact (standing.stop_standing member (by decide : Writer.failed ≠ .running)).note _

theorem closeWire (standing : Standing server) (connection : Connection) (ending : Ending) :
    Standing (server.closeWire connection ending) := by
  cases ending with
  | vanished => exact standing
  | faulted | closed reason =>
      rw [Server.closeWire]
      split
      · exact standing.send _ _
      · exact standing.note _

theorem finishWriter (standing : Standing server) (id : ClientId) (ending : Ending) :
    Standing (server.finishWriter id ending) := by
  unfold Server.finishWriter
  cases found : server.connection? id with
  | none => exact standing
  | some connection =>
      obtain ⟨member, rfl⟩ := mem_of_connection? found
      dsimp only
      split
      · exact standing
      · exact (standing.stop_standing member (by decide : Writer.finished ≠ .running)).closeWire
          connection ending

/-! ## Ends of connections -/

theorem leave_standing (standing : Standing server) {connection : Connection}
    (member : connection ∈ server.connections) : Standing (leave server connection) := by
  have looked : ∀ id, (leave server connection).hub.registry.roster.find? id =
      if id = connection.id then none else server.hub.registry.roster.find? id := by
    intro id
    refine (Hub.Registry.find?_withdraw server.hub.registry connection.id id
      connection.channel).trans ?_
    by_cases same : id = connection.id
    · subst same
      cases found : server.hub.registry.roster.find? connection.id with
      | none => simp
      | some channel => simp [standing.channel_of_entry member found]
    · simp [same]
  refine standing.alter member (fun found => { found with isOpen := false }) ⟨rfl, rfl⟩ rfl
    (Hub.Registry.next_withdraw _ _ _) rfl rfl rfl ?_ ?_ ?_ nofun ?_
  · intro handle given
    obtain ⟨before, apart⟩ := List.mem_filter.mp given
    exact ⟨before, .inr (by simpa using apart)⟩
  · intro id channel found
    rw [looked] at found
    split at found
    · cases found
    · rename_i different
      exact ⟨found, .inr different⟩
  · intro id different
    rw [looked, if_neg different]
  · intro channel
    change server.hub.isLive channel = _
    split
    · rename_i same
      rw [same]
      exact standing.live connection member
    · rfl

theorem finish (standing : Standing server) {connection : Connection}
    (member : connection ∈ server.connections) (ending : Ending) :
    Standing (server.finish connection ending) := by
  have left := standing.leave_standing member
  have written := left.write (mem_leave member) (connection.isWritable && ending = .faulted)
  have finished := written.finishWriter connection.id ending
  rw [finish_eq]
  dsimp only
  split
  · exact finished.note _
  · exact (finished.send _ _).note _

/-! ## New connections -/

theorem channel_lt (standing : Standing server) {connection : Connection}
    (member : connection ∈ server.connections) :
    connection.channel < server.connections.length :=
  (List.getElem?_eq_some_iff.mp (standing.getElem?_channel member)).1

theorem toNat_next (standing : Standing server)
    (few : server.connections.length + 1 < UInt64.size) :
    server.hub.registry.next.toNat = server.connections.length + 1 := by
  rw [standing.next]
  exact UInt64.toNat_ofNat_of_lt' few

theorem id_ne_next (standing : Standing server)
    (few : server.connections.length + 1 < UInt64.size) {connection : Connection}
    (member : connection ∈ server.connections) :
    connection.id ≠ server.hub.registry.next := by
  intro same
  have numbers := standing.toNat_id member
  rw [same, standing.toNat_next few] at numbers
  exact Nat.ne_of_gt (standing.channel_lt member) (Nat.succ.inj numbers)

theorem enroll_standing (standing : Standing server)
    (few : server.connections.length + 1 < UInt64.size) : Standing (enroll server) := by
  have length : (enroll server).connections.length = server.connections.length + 1 :=
    List.length_append
  have looked : ∀ id, (enroll server).hub.registry.roster.find? id =
      if id = server.hub.registry.next then some server.hub.channels.size
      else server.hub.registry.roster.find? id := fun id => Hub.Roster.find?_insert _ _ id _
  have live : ∀ channel, (enroll server).hub.isLive channel =
      (server.hub.isLive channel || decide (channel = server.hub.channels.size)) :=
    fun channel => Hub.isLive_openChannel server.hub.issue.1 channel _
  have either : ∀ connection ∈ (enroll server).connections,
      connection ∈ server.connections ∨ connection =
        ⟨server.hub.registry.next, server.hub.channels.size, true, .running, true⟩ := by
    intro connection member
    exact (List.mem_append.mp member).imp_right List.mem_singleton.mp
  have newcomer : (⟨server.hub.registry.next, server.hub.channels.size, true, .running, true⟩ :
      Connection) ∈ (enroll server).connections := List.mem_append_right _ List.mem_cons_self
  have old : ∀ connection ∈ server.connections, connection ∈ (enroll server).connections :=
    fun _ member => List.mem_append_left _ member
  constructor
  · rw [length]
    exact few
  · intro place connection there
    change (server.connections ++ [_])[place]? = some connection at there
    rcases Nat.lt_or_ge place server.connections.length with below | beyond
    · rw [List.getElem?_append_left below] at there
      exact standing.numbered place connection there
    · rw [List.getElem?_append_right beyond, List.getElem?_singleton] at there
      split at there
      · rename_i last
        have same : place = server.connections.length := by omega
        cases there
        exact ⟨by rw [same]; exact standing.next, by rw [same]; exact standing.size⟩
      · cases there
  · rw [length]
    change server.hub.registry.next + 1 = _
    rw [standing.next]
    exact (UInt64.ofNat_add _ 1).symm
  · rw [length, ← standing.size]
    exact Array.size_push _
  · exact standing.kept
  · exact standing.underway
  · intro handle given
    rcases List.mem_cons.mp given with rfl | before
    · exact ⟨_, newcomer, rfl, rfl⟩
    · obtain ⟨connection, member, isOpen, same⟩ := standing.handles handle before
      exact ⟨connection, old _ member, isOpen, same⟩
  · intro id channel found
    rw [looked] at found
    split at found
    · rename_i same
      cases found
      exact ⟨_, newcomer, rfl, same.symm, rfl⟩
    · obtain ⟨connection, member, rest⟩ := standing.entries id channel found
      exact ⟨connection, old _ member, rest⟩
  · intro connection member isOpen running
    rw [looked]
    rcases either connection member with before | rfl
    · rw [if_neg (standing.id_ne_next few before)]
      exact standing.registered connection before isOpen running
    · rw [if_pos rfl]
  · intro connection member
    rw [live]
    rcases either connection member with before | rfl
    · have below := standing.channel_lt before
      rw [← standing.size] at below
      rw [decide_eq_false (Nat.ne_of_lt below), Bool.or_false]
      exact standing.live connection before
    · simp

theorem connect (standing : Standing server)
    (few : server.connections.length + 1 < UInt64.size) : Standing server.connect.1 := by
  rw [connect_eq]
  exact ((standing.enroll_standing few).note _).broadcast _

/-! ## Events -/

theorem onOpen (standing : Standing server) (id : ClientId) {act : Connection → Server}
    (acts : ∀ connection ∈ server.connections, connection.id = id →
      connection.isOpen = true → Standing (act connection)) :
    Standing (server.onOpen id act) := by
  unfold Server.onOpen
  cases found : server.connection? id with
  | none => exact standing
  | some connection =>
      obtain ⟨member, same⟩ := mem_of_connection? found
      cases isOpen : connection.isOpen with
      | true => simpa [isOpen] using acts connection member same isOpen
      | false => simpa [isOpen] using standing

theorem receive (standing : Standing server) (id : ClientId) (inbound : WebSocket.Inbound) :
    Standing (server.receive id inbound) := by
  refine standing.onOpen id fun connection member _ _ => ?_
  cases inbound with
  | text message =>
      dsimp only
      split
      · exact (standing.note _).broadcast _
      · exact standing.note _
  | binary length => exact standing.note _
  | ping payload => exact standing
  | pong => exact standing
  | close reason => exact standing.finish member _

theorem failReading (standing : Standing server) {connection : Connection}
    (member : connection ∈ server.connections) (ending : Ending) :
    Standing (server.failReading connection ending) :=
  (standing.note _).finish member ending

theorem handle (standing : Standing server) (event : Event)
    (few : event = .connect → server.connections.length + 1 < UInt64.size) :
    Standing (server.handle event) := by
  cases event with
  | connect => exact standing.connect (few rfl)
  | received id inbound => exact standing.receive id inbound
  | readFails id =>
      exact standing.onOpen id fun _ member _ _ => standing.failReading member .faulted
  | vanished id =>
      exact standing.onOpen id fun _ member _ _ => standing.failReading member .vanished
  | writesFail id =>
      refine standing.onOpen id fun connection member same _ => ?_
      subst same
      refine standing.alter member (fun found => { found with isWritable := false }) ⟨rfl, rfl⟩
        rfl rfl rfl rfl rfl (fun _ given => ⟨given, .inl rfl⟩) (fun _ _ found => ⟨found, .inl rfl⟩)
        (fun _ _ => rfl) (standing.registered connection member) fun channel => ?_
      split
      · rename_i own
        rw [own]
        exact standing.live connection member
      · rfl
  | line text => exact standing.broadcast _

end Standing

end PipeCast.Server
