import PipeCast.Proofs.Server.Accounts

/-!
# Runs in which the writers keep up

A server whose writers have their turns after every event makes one choice among all
orders of moves. Then nothing waits when a client ends, so every client gets all that was
said to it and is told goodbye.
-/

set_option autoImplicit false

namespace PipeCast.Server

def Move.event? : Move → Option Event
  | .event happening => some happening
  | .turn _ => none

def turnsOf (connections : List Connection) : List Move :=
  connections.map fun connection => .turn connection.id

theorem filterMap_turnsOf (connections : List Connection) :
    (turnsOf connections).filterMap Move.event? = [] := by
  rw [turnsOf, List.filterMap_map]
  exact List.filterMap_eq_nil_iff.mpr fun _ _ => rfl

theorem event_not_mem_turnsOf (event : Event) (connections : List Connection) :
    Move.event event ∉ turnsOf connections := by
  rw [turnsOf, List.mem_map]
  rintro ⟨connection, _, same⟩
  cases same

theorem mem_write {server : Server} {connection other : Connection}
    (member : other ∈ server.connections) (different : other.id ≠ connection.id)
    (reaches : Bool) : other ∈ (server.write connection reaches).connections := by
  unfold write
  split
  · exact member
  · cases reaches with
    | true => exact member
    | false => exact mem_modify.mpr ⟨other, member, (if_neg different).symm⟩

theorem Standing.pairwise_lt {server : Server} (standing : Standing server) :
    server.connections.Pairwise fun first second => first.id < second.id := by
  refine List.pairwise_iff_getElem.mpr fun first second firstBelow secondBelow before => ?_
  rw [UInt64.lt_iff_toNat_lt, standing.toNat_id (List.getElem_mem firstBelow),
    standing.toNat_id (List.getElem_mem secondBelow),
    (standing.numbered first _ (List.getElem?_eq_getElem firstBelow)).2,
    (standing.numbered second _ (List.getElem?_eq_getElem secondBelow)).2]
  exact Nat.succ_lt_succ before

theorem Standing.pairwise_id {server : Server} (standing : Standing server) :
    server.connections.Pairwise fun first second => first.id ≠ second.id :=
  standing.pairwise_lt.imp UInt64.ne_of_lt

private theorem foldl_write {server : Server} (standing : Standing server)
    {pending : List Connection} (members : ∀ connection ∈ pending, connection ∈ server.connections)
    (distinct : pending.Pairwise fun first second => first.id ≠ second.id) :
    pending.foldl (fun server connection => server.write connection connection.isWritable) server =
      (turnsOf pending).foldl move server := by
  induction pending generalizing server with
  | nil => rfl
  | cons connection pending ih =>
      obtain ⟨apart, distinctLater⟩ := List.pairwise_cons.mp distinct
      have member := members connection List.mem_cons_self
      have turns : move server (.turn connection.id) =
          server.write connection connection.isWritable := by
        rw [move, standing.connection?_eq member]
      rw [turnsOf, List.map_cons, List.foldl_cons, List.foldl_cons, turns]
      refine ih (standing.write member _) (fun other later => ?_) distinctLater
      exact mem_write (members other (List.mem_cons_of_mem _ later)) (apart other later).symm _

theorem Standing.settle_eq {server : Server} (standing : Standing server) :
    server.settle = (turnsOf server.connections).foldl move server :=
  foldl_write standing (fun _ member => member) standing.pairwise_id

theorem foldl_turnsOf (relays : Bool) (accounts : List Account) (connections : List Connection) :
    (turnsOf connections).foldl (follow relays) accounts =
      accounts.map fun account =>
        connections.foldl (fun account connection => account.flush connection.id) account := by
  induction connections generalizing accounts with
  | nil => exact (List.map_id accounts).symm
  | cons connection connections ih =>
      rw [turnsOf, List.map_cons, List.foldl_cons]
      exact (ih _).trans List.map_map

namespace Account

/-- Nothing waits for a client that has ended. -/
def Quiet (account : Account) : Prop :=
  account.ending ≠ none → account.waiting = []

theorem Quiet.hear {account : Account} (quiet : account.Quiet) (text : String) :
    (account.hear text).Quiet := by
  unfold Account.hear
  split
  · rename_i noEnding
    exact fun ended => absurd (Option.isNone_iff_eq_none.mp noEnding) ended
  · exact quiet

theorem Quiet.flush {account : Account} (quiet : account.Quiet) (id : ClientId) :
    (account.flush id).Quiet := by
  unfold Account.flush
  split
  · exact fun _ => rfl
  · exact quiet

theorem id_flush (account : Account) (id : ClientId) : (account.flush id).id = account.id := by
  unfold flush
  split <;> rfl

theorem flush_waiting {account : Account} (empty : account.waiting = []) (id : ClientId) :
    (account.flush id).waiting = [] := by
  unfold flush
  split
  · rfl
  · exact empty

/-- Once every writer has had its turn, nothing waits for anyone. -/
theorem waiting_foldl_flush {account : Account} (quiet : account.Quiet)
    {connections : List Connection}
    (covered : account.waiting ≠ [] → ∃ connection ∈ connections, connection.id = account.id) :
    (connections.foldl (fun account connection => account.flush connection.id) account).waiting =
      [] := by
  induction connections generalizing account with
  | nil =>
      by_contra waits
      obtain ⟨connection, member, _⟩ := covered waits
      cases member
  | cons connection connections ih =>
      rw [List.foldl_cons]
      refine ih (quiet.flush _) fun waits => ?_
      have waited : account.waiting ≠ [] := fun empty => waits (flush_waiting empty _)
      have noEnding : account.ending = none := by
        by_contra ended
        exact waited (quiet ended)
      obtain ⟨other, member, same⟩ := covered waited
      rw [id_flush]
      rcases List.mem_cons.mp member with rfl | later
      · have present : account.isPresent other.id = true := by
          rw [isPresent, noEnding, same]
          simp
        rw [flush, if_pos present] at waits
        exact absurd rfl waits
      · exact ⟨other, later, same⟩

end Account

theorem quiet_of_event {relays : Bool} {accounts : List Account}
    (empty : ∀ account ∈ accounts, account.waiting = []) (event : Event) :
    ∀ account ∈ follow relays accounts (.event event), account.Quiet := by
  have unchanged : ∀ account ∈ accounts, account.Quiet := fun account given _ => empty account given
  have told : ∀ text, ∀ account ∈ accounts.map (Account.hear text), account.Quiet := by
    intro text account given
    obtain ⟨before, member, rfl⟩ := List.mem_map.mp given
    exact (unchanged before member).hear text
  have finished : ∀ id ending, ∀ account ∈ accounts.map (Account.finish id ending),
      account.Quiet := by
    intro id ending account given
    obtain ⟨before, member, rfl⟩ := List.mem_map.mp given
    intro _
    unfold Account.finish
    split <;> exact empty before member
  cases event with
  | connect =>
      intro account given
      obtain ⟨before, member, rfl⟩ := List.mem_map.mp given
      refine Account.Quiet.hear ?_ _
      rcases List.mem_append.mp member with old | new
      · exact unchanged before old
      · rw [List.mem_singleton.mp new]
        exact fun _ => rfl
  | received id inbound =>
      cases inbound with
      | text message =>
          rw [follow]
          split
          · exact told message
          · exact unchanged
      | binary length => exact unchanged
      | ping payload => exact unchanged
      | pong => exact unchanged
      | close reason => exact finished id (.closed reason)
  | readFails id => exact finished id .faulted
  | vanished id => exact finished id .vanished
  | writesFail id => exact unchanged
  | line text => exact told text

namespace Faithful

variable {relays : Bool} {server : Server} {accounts : List Account}

/-- Turns need no room: they let nobody in. -/
theorem foldl_turnsOf (faithful : Faithful relays server accounts) (connections : List Connection) :
    Faithful relays ((turnsOf connections).foldl move server)
      ((turnsOf connections).foldl (follow relays) accounts) := by
  refine faithful.foldl (fun id => event_not_mem_turnsOf _ _) ?_
  rw [List.count_eq_zero.mpr (event_not_mem_turnsOf _ _), ← faithful.agree.length_eq]
  exact faithful.standing.few

/-- After an event and the turns that follow it nothing waits for anyone. -/
theorem step (faithful : Faithful relays server accounts)
    (empty : ∀ account ∈ accounts, account.waiting = []) (event : Event)
    (writable : ∀ id, event ≠ .writesFail id)
    (few : event = .connect → accounts.length + 1 < UInt64.size) :
    let moves := .event event :: turnsOf (server.handle event).connections
    server.step event = moves.foldl move server ∧
      Faithful relays (server.step event) (moves.foldl (follow relays) accounts) ∧
      ∀ account ∈ moves.foldl (follow relays) accounts, account.waiting = [] := by
  intro moves
  have handled := faithful.after_event event writable few
  have step : server.step event = moves.foldl move server := handled.standing.settle_eq
  refine ⟨step, ?_, ?_⟩
  · rw [step]
    exact handled.foldl_turnsOf _
  · intro account given
    rw [List.foldl_cons, Server.foldl_turnsOf] at given
    obtain ⟨before, member, rfl⟩ := List.mem_map.mp given
    refine Account.waiting_foldl_flush (quiet_of_event empty event before member) fun _ => ?_
    obtain ⟨connection, present, agrees⟩ := handled.exists_connection member
    exact ⟨connection, present, agrees.id⟩

theorem count_moves (event : Event) (connections : List Connection) :
    (.event event :: turnsOf connections).count (.event .connect) =
      if event = .connect then 1 else 0 := by
  rw [List.count_cons, List.count_eq_zero.mpr (event_not_mem_turnsOf _ _), Nat.zero_add]
  by_cases same : event = .connect <;> simp [same]

/-- A run is made of moves: its events in order, and turns of the writers by which nothing
waits when the next event comes. -/
theorem exists_moves (faithful : Faithful relays server accounts)
    (empty : ∀ account ∈ accounts, account.waiting = []) {events : List Event}
    (writable : ∀ id, Event.writesFail id ∉ events)
    (few : accounts.length + events.count .connect < UInt64.size) :
    ∃ moves : List Move, moves.filterMap Move.event? = events ∧
      server.run events = moves.foldl move server ∧
      Faithful relays (server.run events) (moves.foldl (follow relays) accounts) ∧
      ∀ account ∈ moves.foldl (follow relays) accounts, account.waiting = [] := by
  induction events generalizing server accounts with
  | nil => exact ⟨[], rfl, rfl, faithful, empty⟩
  | cons event events ih =>
      have counted := count_moves event (server.handle event).connections
      obtain ⟨room, fewLater⟩ := room_of_few few
      obtain ⟨step, faithfully, emptied⟩ := faithful.step empty event
        (fun id same => writable id (same ▸ List.mem_cons_self)) room
      obtain ⟨moves, same, rest, lastly, nothing⟩ := ih faithfully emptied
        (fun id member => writable id (List.mem_cons_of_mem _ member))
        (by rwa [length_foldl_follow, counted])
      refine ⟨.event event :: turnsOf (server.handle event).connections ++ moves, ?_, ?_, ?_, ?_⟩
      · rw [List.filterMap_append, List.filterMap_cons, filterMap_turnsOf, same]
        rfl
      · rw [List.foldl_append, ← step]
        exact rest
      · rw [List.foldl_append]
        exact lastly
      · rw [List.foldl_append]
        exact nothing

end Faithful

/-- Where the writers keep up, every client gets all that was said to it, and at its end a
close, unless it is gone, and nothing after that. -/
theorem run_tells_everything (relays : Bool) {events : List Event}
    (writable : ∀ id, Event.writesFail id ∉ events) (few : events.count .connect < UInt64.size) :
    ∃ moves : List Move, moves.filterMap Move.event? = events ∧
      let server := (Server.fresh relays).run events
      let accounts := moves.foldl (follow relays) []
      List.Forall₂ (Agrees server) server.connections accounts ∧
      ∀ account ∈ accounts, account.wire = account.written.map .text ++
        (account.ending.map fun ending =>
          closing ending ++ if ending = .vanished then [] else [.eof]).getD [] := by
  obtain ⟨moves, same, _, faithful, nothing⟩ := (Faithful.fresh relays).exists_moves nofun writable
    (by rwa [List.length_nil, Nat.zero_add])
  refine ⟨moves, same, faithful.agree, fun account given => ?_⟩
  rw [Account.wire, nothing account given]
  rfl

end PipeCast.Server
