import Mathlib.Data.List.Forall2
import PipeCast.Proofs.Server.Wire

/-!
# What clients are told

An account of every client that knows nothing of numbers, channels, handles and the
registry: what has been said to it, how much of that its writer has taken, and how it
ended. As long as no write fails before a client's end, the wires of a server hold what
the accounts say, wherever the turns of the writers fall between the events.
-/

set_option autoImplicit false

namespace PipeCast.Server

/-! ## Accounts -/

structure Account where
  id : ClientId
  /-- What was said to the client and has been taken by its writer. -/
  written : List String
  /-- What was said to the client and still waits. -/
  waiting : List String
  ending : Option Ending
  deriving DecidableEq, Repr

namespace Account

def fresh (id : ClientId) : Account := ⟨id, [], [], none⟩

def isPresent (account : Account) (id : ClientId) : Bool :=
  account.id = id && account.ending.isNone

/-- Only a client that has not ended is told anything. -/
def hear (text : String) (account : Account) : Account :=
  if account.ending.isNone then { account with waiting := account.waiting ++ [text] } else account

def flush (id : ClientId) (account : Account) : Account :=
  if account.isPresent id then
    { account with written := account.written ++ account.waiting, waiting := [] }
  else account

def finish (id : ClientId) (ending : Ending) (account : Account) : Account :=
  if account.isPresent id then { account with ending := some ending } else account

/-- What the client finds on its wire. -/
def wire (account : Account) : List Sent :=
  account.written.map .text ++ (account.ending.map (farewell account.waiting)).getD []

def writer (account : Account) : Writer :=
  (account.ending.map (lastWriter account.waiting)).getD .running

end Account

/-- An event, or a turn of the writer of a client. -/
inductive Move where
  | event (event : Event)
  | turn (id : ClientId)
  deriving DecidableEq, Repr

def move (server : Server) : Move → Server
  | .event event => server.handle event
  | .turn id =>
      match server.connection? id with
      | some connection => server.write connection connection.isWritable
      | none => server

/-- What a move does to the accounts. A new client is the first to be told that it joined;
what a client says is told to everyone, itself included, if the server relays it. -/
def follow (relays : Bool) (accounts : List Account) : Move → List Account
  | .event .connect =>
      (accounts ++ [Account.fresh (UInt64.ofNat (accounts.length + 1))]).map
        (.hear Message.announcement)
  | .event (.received id (.text message)) =>
      if relays && accounts.any (·.isPresent id) then accounts.map (.hear message) else accounts
  | .event (.received id (.close reason)) => accounts.map (.finish id (.closed reason))
  | .event (.received _ _) => accounts
  | .event (.readFails id) => accounts.map (.finish id .faulted)
  | .event (.vanished id) => accounts.map (.finish id .vanished)
  | .event (.writesFail _) => accounts
  | .event (.line text) => accounts.map (.hear text)
  | .turn id => accounts.map (.flush id)

/-! ## Agreement -/

/-- A connection is as the account of its client says. -/
structure Agrees (server : Server) (connection : Connection) (account : Account) : Prop where
  id : connection.id = account.id
  isOpen : connection.isOpen = account.ending.isNone
  isWritable : connection.isWritable = true
  writer : connection.writer = account.writer
  wire : server.wire connection.id = account.wire
  waiting : account.ending = none → server.hub.queueOf connection.channel = account.waiting

namespace Agrees

variable {server : Server} {connection : Connection} {account : Account}

theorem running (agrees : Agrees server connection account) (isOpen : connection.isOpen = true) :
    account.ending = none ∧ connection.writer = .running := by
  have present := agrees.isOpen
  rw [isOpen] at present
  have noEnding := Option.isNone_iff_eq_none.mp present.symm
  refine ⟨noEnding, agrees.writer.trans ?_⟩
  rw [Account.writer, noEnding]
  rfl

theorem isPresent_id (agrees : Agrees server connection account)
    (isOpen : connection.isOpen = true) : account.isPresent connection.id = true := by
  rw [Account.isPresent, agrees.id, (agrees.running isOpen).1]
  simp

theorem isPresent (agrees : Agrees server connection account) (id : ClientId) :
    account.isPresent id = (connection.id = id && connection.isOpen) := by
  rw [Account.isPresent, ← agrees.id, ← agrees.isOpen]

theorem stopped (agrees : Agrees server connection account) (ended : connection.isOpen = false) :
    connection.writer ≠ .running := by
  have gone := agrees.isOpen
  rw [ended] at gone
  cases known : account.ending with
  | none =>
      rw [known] at gone
      cases gone
  | some ending =>
      rw [agrees.writer, Account.writer, known]
      change lastWriter account.waiting ending ≠ .running
      unfold lastWriter
      split <;> nofun

/-- A change that does not concern the connection. -/
theorem of_apart (agrees : Agrees server connection account) {changed : Server}
    (wire : changed.wire connection.id = server.wire connection.id)
    (queueOf : changed.hub.queueOf connection.channel = server.hub.queueOf connection.channel) :
    Agrees changed connection account :=
  { agrees with
    wire := wire.trans agrees.wire
    waiting := fun noEnding => queueOf.trans (agrees.waiting noEnding) }

end Agrees

section

variable {First Second : Type} {relation stronger : First → Second → Prop}
  {firsts : List First} {seconds : List Second}

private theorem exists_of_mem_left (all : List.Forall₂ relation firsts seconds) {first : First}
    (member : first ∈ firsts) : ∃ second ∈ seconds, relation first second := by
  induction all with
  | nil => cases member
  | cons related _ ih =>
      rcases List.mem_cons.mp member with rfl | later
      · exact ⟨_, List.mem_cons_self, related⟩
      · obtain ⟨second, given, relatedLater⟩ := ih later
        exact ⟨second, List.mem_cons_of_mem _ given, relatedLater⟩

private theorem imp_of_mem (all : List.Forall₂ relation firsts seconds)
    (imp : ∀ first ∈ firsts, ∀ second ∈ seconds, relation first second → stronger first second) :
    List.Forall₂ stronger firsts seconds := by
  induction all with
  | nil => exact .nil
  | cons related _ ih =>
      refine .cons (imp _ List.mem_cons_self _ List.mem_cons_self related) (ih ?_)
      exact fun first member second given =>
        imp first (List.mem_cons_of_mem _ member) second (List.mem_cons_of_mem _ given)

end

/-- A server is as the accounts say. -/
structure Faithful (relays : Bool) (server : Server) (accounts : List Account) : Prop where
  standing : Standing server
  relays : server.relaysClients = relays
  unknown : ∀ id, (∀ connection ∈ server.connections, connection.id ≠ id) → server.wire id = []
  agree : List.Forall₂ (Agrees server) server.connections accounts

namespace Faithful

variable {relays : Bool} {server : Server} {accounts : List Account}

theorem fresh (relays : Bool) : Faithful relays (Server.fresh relays) [] :=
  ⟨.fresh relays, rfl, fun _ _ => rfl, .nil⟩

theorem exists_account (faithful : Faithful relays server accounts) {connection : Connection}
    (member : connection ∈ server.connections) :
    ∃ account ∈ accounts, Agrees server connection account :=
  exists_of_mem_left faithful.agree member

theorem exists_connection (faithful : Faithful relays server accounts) {account : Account}
    (given : account ∈ accounts) :
    ∃ connection ∈ server.connections, Agrees server connection account :=
  exists_of_mem_left faithful.agree.flip given

theorem isPresent_of_ended (faithful : Faithful relays server accounts) {id : ClientId}
    (ended : ∀ connection ∈ server.connections, connection.id = id → connection.isOpen = false)
    {account : Account} (given : account ∈ accounts) : account.isPresent id = false := by
  obtain ⟨connection, member, agrees⟩ := faithful.exists_connection given
  rw [agrees.isPresent]
  by_cases same : connection.id = id
  · rw [ended connection member same, Bool.and_false]
  · rw [decide_eq_false same, Bool.false_and]

/-- Whether a client is present decides whether it can act. -/
theorem onOpen_cases (faithful : Faithful relays server accounts) (id : ClientId) :
    (∃ connection ∈ server.connections, connection.id = id ∧ connection.isOpen = true ∧
      (∀ act, server.onOpen id act = act connection) ∧
      accounts.any (·.isPresent id) = true) ∨
    ((∀ act, server.onOpen id act = server) ∧ ∀ account ∈ accounts, account.isPresent id = false) := by
  cases found : server.connection? id with
  | none =>
      refine .inr ⟨fun act => by rw [onOpen, found], fun account given => ?_⟩
      refine faithful.isPresent_of_ended (fun connection member same => ?_) given
      rw [← same, faithful.standing.connection?_eq member] at found
      cases found
  | some connection =>
      obtain ⟨member, rfl⟩ := mem_of_connection? found
      cases isOpen : connection.isOpen with
      | true =>
          obtain ⟨account, given, agrees⟩ := faithful.exists_account member
          refine .inl ⟨connection, member, rfl, isOpen, fun act => ?_, ?_⟩
          · rw [onOpen, found]
            exact if_pos isOpen
          · refine List.any_eq_true.mpr ⟨account, given, ?_⟩
            rw [agrees.isPresent, isOpen]
            simp
      | false =>
          refine .inr ⟨fun act => ?_, fun account given => ?_⟩
          · rw [onOpen, found]
            exact if_neg (by simp [isOpen])
          · refine faithful.isPresent_of_ended (fun other present same => ?_) given
            rwa [faithful.standing.eq_of_id_eq present member same]

/-! ## Changes at one connection -/

theorem alter (faithful : Faithful relays server accounts) {connection : Connection}
    (member : connection ∈ server.connections) {change : Connection → Connection}
    {amend : Account → Account} {changed : Server} (standing : Standing changed)
    (apart : Apart connection.id connection.channel server changed)
    (connections : changed.connections = (server.modify connection.id change).connections)
    (identity : (change connection).id = connection.id)
    (others : ∀ account ∈ accounts, account.id ≠ connection.id → amend account = account)
    (own : ∀ account, Agrees server connection account →
      Agrees changed (change connection) (amend account)) :
    Faithful relays changed (accounts.map amend) := by
  have same_id : ∀ found ∈ server.connections,
      (if found.id = connection.id then change found else found).id = found.id := by
    intro found present
    split
    · rename_i same
      rw [faithful.standing.eq_of_id_eq present member same]
      exact identity
    · rfl
  refine ⟨standing, apart.relays.trans faithful.relays, ?_, ?_⟩
  · intro id unknown
    have absent : ∀ found ∈ server.connections, found.id ≠ id := by
      intro found present
      rw [← same_id found present]
      exact unknown _ (connections ▸ mem_modify.mpr ⟨found, present, rfl⟩)
    rw [apart.wire id (absent connection member).symm]
    exact faithful.unknown id absent
  · rw [connections]
    refine List.forall₂_map_left_iff.mpr (List.forall₂_map_right_iff.mpr ?_)
    refine imp_of_mem faithful.agree fun found present account given agrees => ?_
    by_cases same : found.id = connection.id
    · have equal := faithful.standing.eq_of_id_eq present member same
      subst equal
      rw [if_pos rfl]
      exact own account agrees
    · rw [if_neg same, others account given (agrees.id ▸ same)]
      refine agrees.of_apart (apart.wire _ same) (apart.queueOf _ fun channel => same ?_)
      exact congrArg Connection.id (faithful.standing.eq_of_channel_eq present member channel)

theorem turn_of_open (faithful : Faithful relays server accounts) {connection : Connection}
    (member : connection ∈ server.connections) (isOpen : connection.isOpen = true) :
    Faithful relays (server.write connection true) (accounts.map (.flush connection.id)) := by
  obtain ⟨_, _, agreesNow⟩ := faithful.exists_account member
  obtain ⟨apart, connections, empty, wire⟩ := write_reaching (agreesNow.running isOpen).2
  have standing := faithful.standing.write member true
  refine @alter _ _ _ faithful _ member id _ _ standing apart ?_ rfl ?_ ?_
  · rw [connections, modify]
    simp
  · intro account _ different
    rw [Account.flush, Account.isPresent, decide_eq_false different]
    rfl
  · intro account agrees
    have noEnding := (agrees.running isOpen).1
    rw [Account.flush, if_pos (agrees.isPresent_id isOpen)]
    refine ⟨agrees.id, agrees.isOpen, agrees.isWritable, ?_, ?_, fun _ => empty⟩
    · refine (agrees.running isOpen).2.trans ?_
      rw [Account.writer, noEnding]
      rfl
    · refine wire.trans ?_
      rw [agrees.wire, agrees.waiting noEnding, Account.wire, Account.wire, noEnding]
      simp

theorem finish (faithful : Faithful relays server accounts) {connection : Connection}
    (member : connection ∈ server.connections) (isOpen : connection.isOpen = true)
    (ending : Ending) :
    Faithful relays (server.finish connection ending)
      (accounts.map (.finish connection.id ending)) := by
  obtain ⟨_, _, agreesNow⟩ := faithful.exists_account member
  obtain ⟨apart, connections, wire⟩ := finish_says_farewell faithful.standing member
    (agreesNow.running isOpen).2 agreesNow.isWritable ending
  have standing := faithful.standing.finish member ending
  refine faithful.alter member standing apart connections rfl ?_ ?_
  · intro account _ different
    rw [Account.finish, Account.isPresent, decide_eq_false different]
    rfl
  · intro account agrees
    have noEnding := (agrees.running isOpen).1
    rw [Account.finish, if_pos (agrees.isPresent_id isOpen)]
    refine ⟨agrees.id, rfl, agrees.isWritable, ?_, ?_, nofun⟩
    · exact congrArg (lastWriter · ending) (agrees.waiting noEnding)
    · rw [wire, agrees.wire, agrees.waiting noEnding, Account.wire, Account.wire, noEnding]
      simp

/-! ## What is said to everyone -/

theorem note (faithful : Faithful relays server accounts) (note : Note) :
    Faithful relays (server.note note) accounts :=
  ⟨faithful.standing.note note, faithful.relays, faithful.unknown, faithful.agree.imp
    fun _ _ agrees => agrees.of_apart rfl rfl⟩

/-- An open connection hears of every broadcast once. -/
theorem say (faithful : Faithful relays server accounts) (message : Message) :
    Faithful relays (server.broadcast message) (accounts.map (.hear message.text)) := by
  refine ⟨faithful.standing.broadcast message, faithful.relays, faithful.unknown, ?_⟩
  refine List.forall₂_map_right_iff.mpr (imp_of_mem faithful.agree ?_)
  intro connection member account _ agrees
  cases noEnding : account.ending with
  | some ending =>
      have unheard : account.hear message.text = account := by
        rw [Account.hear, noEnding]
        rfl
      rw [unheard]
      exact { agrees with waiting := fun absent => by rw [noEnding] at absent; cases absent }
  | none =>
      have heard : account.hear message.text =
          { account with waiting := account.waiting ++ [message.text] } := by
        rw [Account.hear, noEnding]
        rfl
      have isOpen := agrees.isOpen
      rw [noEnding] at isOpen
      have running := (agrees.running isOpen).2
      have live := faithful.standing.live connection member
      rw [running] at live
      rw [heard]
      refine ⟨agrees.id, agrees.isOpen, agrees.isWritable, ?_, ?_, fun _ => ?_⟩
      · refine running.trans ?_
        rw [Account.writer, noEnding]
        rfl
      · refine agrees.wire.trans ?_
        rw [Account.wire, Account.wire, noEnding]
        rfl
      · refine (Hub.queueOf_broadcast server.hub message connection.channel).trans ?_
        rw [agrees.waiting noEnding, live, if_pos (by decide),
          faithful.standing.countP_channel member isOpen running]
        rfl

theorem enroll (faithful : Faithful relays server accounts)
    (few : accounts.length + 1 < UInt64.size) :
    Faithful relays (enroll server)
      (accounts ++ [Account.fresh (UInt64.ofNat (accounts.length + 1))]) := by
  have counted := faithful.agree.length_eq
  rw [← counted] at few ⊢
  have known : ∀ connection ∈ server.connections, connection.id ≠ server.hub.registry.next :=
    fun _ member => faithful.standing.id_ne_next few member
  have queueOf : ∀ channel, (Server.enroll server).hub.queueOf channel = server.hub.queueOf channel :=
    fun channel => Hub.queueOf_openChannel server.hub.issue.1 channel _
  refine ⟨faithful.standing.enroll_standing few, faithful.relays, ?_, ?_⟩
  · intro id unknown
    exact faithful.unknown id fun connection member =>
      unknown connection (List.mem_append_left _ member)
  · refine List.rel_append (faithful.agree.imp fun connection account agrees =>
      agrees.of_apart rfl (queueOf _)) (.cons ?_ .nil)
    refine ⟨faithful.standing.next, rfl, rfl, rfl, faithful.unknown _ known, fun _ => ?_⟩
    exact (queueOf _).trans (Hub.queueOf_of_size_le (Nat.le_refl _))

/-! ## Moves -/

theorem map_eq_self {amend : Account → Account}
    (same : ∀ account ∈ accounts, amend account = account) : accounts.map amend = accounts :=
  (List.map_congr_left same).trans (List.map_id accounts)

theorem finish_onOpen (faithful : Faithful relays server accounts) (id : ClientId)
    (ending : Ending) {act : Connection → Server}
    (acts : ∀ connection ∈ server.connections, connection.isOpen = true →
      Faithful relays (act connection) (accounts.map (.finish connection.id ending))) :
    Faithful relays (server.onOpen id act) (accounts.map (.finish id ending)) := by
  rcases faithful.onOpen_cases id with ⟨connection, member, rfl, isOpen, acting, _⟩ | ⟨idle, absent⟩
  · rw [acting]
    exact acts connection member isOpen
  · rw [idle, map_eq_self fun account given => by rw [Account.finish, absent account given]; rfl]
    exact faithful

theorem after_event (faithful : Faithful relays server accounts) (event : Event)
    (writable : ∀ id, event ≠ .writesFail id)
    (few : event = .connect → accounts.length + 1 < UInt64.size) :
    Faithful relays (server.handle event) (follow relays accounts (.event event)) := by
  cases event with
  | connect =>
      rw [Server.handle, connect_eq]
      exact ((faithful.enroll (few rfl)).note _).say .joined
  | line text => exact faithful.say (.line text)
  | writesFail id => exact absurd rfl (writable id)
  | readFails id =>
      exact faithful.finish_onOpen id .faulted fun connection member isOpen =>
        (faithful.note (.readFailed connection.id)).finish member isOpen .faulted
  | vanished id =>
      exact faithful.finish_onOpen id .vanished fun connection member isOpen =>
        (faithful.note (.readFailed connection.id)).finish member isOpen .vanished
  | received id inbound =>
      cases inbound with
      | close reason =>
          exact faithful.finish_onOpen id (.closed reason) fun connection member isOpen =>
            faithful.finish member isOpen (.closed reason)
      | text message =>
          rcases faithful.onOpen_cases id with
            ⟨connection, member, rfl, isOpen, acting, present⟩ | ⟨idle, absent⟩
          · rw [Server.handle, Server.receive, acting, follow, present, Bool.and_true]
            have noted := faithful.note (.said connection.id (Text.Preview.of message))
            dsimp only
            by_cases told : relays = true
            · rw [if_pos (noted.relays.trans told), if_pos told]
              exact noted.say (.said connection.id message)
            · rw [if_neg fun relayed => told (noted.relays.symm.trans relayed), if_neg told]
              exact noted
          · have nobody : accounts.any (·.isPresent id) = false :=
              List.any_eq_false.mpr fun account given => by rw [absent account given]; nofun
            rw [Server.handle, Server.receive, idle, follow, nobody, Bool.and_false]
            exact faithful
      | binary length =>
          rcases faithful.onOpen_cases id with ⟨connection, _, rfl, _, acting, _⟩ | ⟨idle, _⟩
          · rw [Server.handle, Server.receive, acting]
            exact faithful.note _
          · rw [Server.handle, Server.receive, idle]
            exact faithful
      | ping payload | pong =>
          rcases faithful.onOpen_cases id with ⟨connection, _, rfl, _, acting, _⟩ | ⟨idle, _⟩
          · rw [Server.handle, Server.receive, acting]
            exact faithful
          · rw [Server.handle, Server.receive, idle]
            exact faithful

theorem after_turn (faithful : Faithful relays server accounts) (id : ClientId) :
    Faithful relays (move server (.turn id)) (follow relays accounts (.turn id)) := by
  have idle : (∀ connection ∈ server.connections, connection.id = id →
      connection.isOpen = false) → accounts.map (.flush id) = accounts := by
    intro ended
    refine map_eq_self fun account given => ?_
    rw [Account.flush, faithful.isPresent_of_ended ended given]
    rfl
  cases found : server.connection? id with
  | none =>
      have absent : ∀ connection ∈ server.connections, connection.id = id →
          connection.isOpen = false := by
        intro connection member same
        rw [← same, faithful.standing.connection?_eq member] at found
        cases found
      rw [move, found, follow, idle absent]
      exact faithful
  | some connection =>
      obtain ⟨member, rfl⟩ := mem_of_connection? found
      obtain ⟨account, _, agrees⟩ := faithful.exists_account member
      rw [move, found, follow]
      dsimp only
      rw [agrees.isWritable]
      cases isOpen : connection.isOpen with
      | true => exact faithful.turn_of_open member isOpen
      | false =>
          have absent : ∀ other ∈ server.connections, other.id = connection.id →
              other.isOpen = false := by
            intro other present same
            rwa [faithful.standing.eq_of_id_eq present member same]
          rw [write_of_stopped true (agrees.stopped isOpen), idle absent]
          exact faithful

theorem after_move (faithful : Faithful relays server accounts) (move : Move)
    (writable : ∀ id, move ≠ .event (.writesFail id))
    (few : move = .event .connect → accounts.length + 1 < UInt64.size) :
    Faithful relays (Server.move server move) (follow relays accounts move) := by
  cases move with
  | event event =>
      exact faithful.after_event event (fun id same => writable id (congrArg _ same))
        (fun same => few (congrArg _ same))
  | turn id => exact faithful.after_turn id

end Faithful

theorem length_follow (relays : Bool) (accounts : List Account) (move : Move) :
    (follow relays accounts move).length =
      accounts.length + if move = .event .connect then 1 else 0 := by
  cases move with
  | turn id => exact List.length_map _
  | event event =>
      cases event with
      | connect => simp [follow]
      | received id inbound =>
          cases inbound with
          | text message =>
              rw [follow]
              split <;> simp
          | binary length => rfl
          | ping payload => rfl
          | pong => rfl
          | close reason => exact List.length_map _
      | readFails id => exact List.length_map _
      | vanished id => exact List.length_map _
      | writesFail id => rfl
      | line text => exact List.length_map _

theorem length_foldl_follow (relays : Bool) (accounts : List Account) (moves : List Move) :
    (moves.foldl (follow relays) accounts).length =
      accounts.length + moves.count (.event .connect) := by
  induction moves generalizing accounts with
  | nil => rfl
  | cons move moves ih =>
      rw [List.foldl_cons, ih, length_follow, List.count_cons]
      by_cases same : move = .event .connect
      · rw [if_pos same, if_pos (beq_iff_eq.mpr same), Nat.add_assoc, Nat.add_comm 1]
      · rw [if_neg same, if_neg fun equal => same (beq_iff_eq.mp equal), Nat.add_zero, Nat.add_zero]

/-- Room for all who are to arrive is room for the next and, after it, for the others. -/
theorem room_of_few {Happening : Type} [DecidableEq Happening] {arrival first : Happening}
    {later : List Happening} {present : Nat}
    (few : present + (first :: later).count arrival < UInt64.size) :
    (first = arrival → present + 1 < UInt64.size) ∧
      (present + if first = arrival then 1 else 0) + later.count arrival < UInt64.size := by
  rw [List.count_cons] at few
  by_cases same : first = arrival
  · rw [if_pos (beq_iff_eq.mpr same)] at few
    rw [if_pos same]
    omega
  · rw [if_neg fun equal => same (beq_iff_eq.mp equal)] at few
    rw [if_neg same]
    exact ⟨fun equal => absurd equal same, by omega⟩

theorem Faithful.foldl {relays : Bool} {server : Server} {accounts : List Account}
    (faithful : Faithful relays server accounts) {moves : List Move}
    (writable : ∀ id, Move.event (.writesFail id) ∉ moves)
    (few : accounts.length + moves.count (.event .connect) < UInt64.size) :
    Faithful relays (moves.foldl Server.move server) (moves.foldl (follow relays) accounts) := by
  induction moves generalizing server accounts with
  | nil => exact faithful
  | cons move moves ih =>
      obtain ⟨room, fewLater⟩ := room_of_few few
      have next := faithful.after_move move
        (fun id same => writable id (same ▸ List.mem_cons_self)) room
      refine ih next (fun id member => writable id (List.mem_cons_of_mem _ member)) ?_
      rwa [length_follow]

/-! ## The wires -/

/-- However the turns of the writers fall between the events, every client finds on its
wire what its account says, as long as no write fails before its end. -/
theorem wires_hold_what_was_said (relays : Bool) {moves : List Move}
    (writable : ∀ id, Move.event (.writesFail id) ∉ moves)
    (few : moves.count (.event .connect) < UInt64.size) :
    let server := moves.foldl Server.move (Server.fresh relays)
    let accounts := moves.foldl (follow relays) []
    List.Forall₂ (Agrees server) server.connections accounts := by
  have room : ([] : List Account).length + moves.count (.event .connect) < UInt64.size := by
    rwa [List.length_nil, Nat.zero_add]
  exact ((Faithful.fresh relays).foldl writable room).agree

theorem wires_hold_two_farewells :
    let moves := [.event .connect, .turn 1, .event .connect, .event (.received 1 (.text "hi")),
      .event (.received 2 (.close none)), .event (.line "bye"), .event (.readFails 1)]
    let server := moves.foldl Server.move (Server.fresh true)
    let accounts := moves.foldl (follow true) []
    List.Forall₂ (Agrees server) server.connections accounts ∧
      accounts.map Account.wire =
        [[.text Message.announcement, .text Message.announcement, .text "hi", .text "bye",
          .close none, .eof], [.eof]] :=
  ⟨wires_hold_what_was_said true (by simp) (by decide), by decide⟩

/-- A client that is told something and closes before its writer has had a turn finds
neither what waits nor an answer to its close on its wire. -/
theorem queued_text_is_lost_at_close :
    let moves := [.event .connect, .turn 1, .event (.received 1 (.text "hi")),
      .event (.received 1 (.close none))]
    (moves.foldl (follow true) []).map (fun account => account.written ++ account.waiting) =
        [[Message.announcement, "hi"]] ∧
      (moves.foldl Server.move (Server.fresh true)).wire 1 =
        [.text Message.announcement, .eof] := by
  decide

end PipeCast.Server
