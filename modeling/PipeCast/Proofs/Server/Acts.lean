import PipeCast.Http.Routes
import PipeCast.Proofs.Server.Runs
import PipeCast.Server.Gateway

/-!
# What happens to a server

A server moves, or it is asked for its routes. Pings are answered on the wire. So every act is
a move, or it puts something on the wire and does nothing else. A ping that cannot be answered
is the move of a failed read.
-/

set_option autoImplicit false

namespace PipeCast.Server

/-- A move, or a request that asks the server for its routes. -/
inductive Act where
  | move (made : Move)
  | request (canUpgrade : Bool) (request : Http.Request)
  deriving DecidableEq, Repr

/-- Lets something happen, with pings answered on the wire. -/
def perform (server : Server) : Act → Server
  | .move (.event (.received id inbound)) => Gateway.handOn id server inbound
  | .move made => move server made
  | .request _ _ => server

/-- Whether an act is a ping of a client to whom nothing can be written any more. -/
def isUnanswerable (server : Server) : Act → Bool
  | .move (.event (.received id (.ping _))) =>
      (server.connection? id).any fun connection => connection.isOpen && !connection.isWritable
  | _ => false

/-! ## Ends of connections -/

/-- The client whose connection an event ends, if it is still open. -/
def Event.ended? : Event → Option ClientId
  | .received id (.close _) | .readFails id | .vanished id => some id
  | _ => none

/-- The client whose connection an act ends, if it is still open. -/
def ended? (server : Server) : Act → Option ClientId
  | .move (.event (.received id (.ping payload))) =>
      if server.isUnanswerable (.move (.event (.received id (.ping payload)))) then some id
      else none
  | .move (.event event) => event.ended?
  | _ => none

theorem onOpen_cases (server : Server) (id : ClientId) (act : Connection → Server) :
    (server.onOpen id act = server ∧
        ∀ connection, server.connection? id = some connection → connection.isOpen = false) ∨
      ∃ connection, server.connection? id = some connection ∧ connection.isOpen = true ∧
        server.onOpen id act = act connection := by
  unfold onOpen
  cases found : server.connection? id with
  | none => exact .inl ⟨rfl, nofun⟩
  | some connection =>
      cases isOpen : connection.isOpen with
      | true => exact .inr ⟨connection, rfl, isOpen, if_pos isOpen⟩
      | false =>
          refine .inl ⟨by simp [isOpen], fun other same => ?_⟩
          cases same
          exact isOpen

theorem perform_of_ping (server : Server) (id : ClientId) (payload : List UInt8) :
    let ping := Act.move (.event (.received id (.ping payload)))
    (server.isUnanswerable ping = true ∧
        server.perform ping = server.handle (.readFails id)) ∨
      (server.isUnanswerable ping = false ∧
        ∃ sent, server.perform ping = { server with sent := sent ++ server.sent }) := by
  intro ping
  rcases onOpen_cases server id _ with ⟨same, closed⟩ | ⟨connection, found, isOpen, same⟩
  · right
    refine ⟨?_, [], same⟩
    rw [isUnanswerable, Option.any_eq_false]
    intro connection found
    rw [closed connection found, Bool.false_and]
  · cases writable : connection.isWritable with
    | false =>
        left
        refine ⟨?_, same.trans (if_neg (by simp [writable]))⟩
        simp [ping, isUnanswerable, found, isOpen, writable]
    | true =>
        right
        refine ⟨?_, [(id, .pong payload)], same.trans (if_pos writable)⟩
        simp [ping, isUnanswerable, found, isOpen, writable]

theorem perform_of_event (server : Server) {event : Event}
    (other : ∀ id payload, event ≠ .received id (.ping payload)) :
    server.perform (.move (.event event)) = server.handle event ∧
      server.ended? (.move (.event event)) = event.ended? := by
  cases event with
  | received id inbound =>
      cases inbound with
      | ping payload => exact absurd rfl (other id payload)
      | _ => exact ⟨rfl, rfl⟩
  | _ => exact ⟨rfl, rfl⟩

/-- An act is a move, which ends the same connection if it ends one, or it puts something on
the wire and does nothing else. -/
theorem perform_cases (server : Server) (act : Act) :
    (∃ made : Move, server.perform act = move server made ∧
        (made = .event .connect ↔ act = .move (.event .connect)) ∧
        ∀ id, server.ended? act = some id →
          ∃ event : Event, made = .event event ∧ event.ended? = some id) ∨
      (act ≠ .move (.event .connect) ∧ server.ended? act = none ∧
        ∃ sent, server.perform act = { server with sent := sent ++ server.sent }) := by
  cases act with
  | request => exact .inr ⟨nofun, rfl, [], rfl⟩
  | move made =>
      cases made with
      | turn id => exact .inl ⟨.turn id, rfl, by simp, nofun⟩
      | event event =>
          by_cases ping : ∃ id payload, event = .received id (.ping payload)
          · obtain ⟨id, payload, rfl⟩ := ping
            rcases perform_of_ping server id payload with ⟨unable, same⟩ | ⟨able, same⟩
            · refine .inl ⟨.event (.readFails id), same, by simp, fun found ended => ?_⟩
              rw [ended?, if_pos unable] at ended
              exact ⟨_, rfl, ended⟩
            · refine .inr ⟨nofun, ?_, same⟩
              rw [ended?, able]
              rfl
          · obtain ⟨same, ends⟩ := perform_of_event server
              fun id payload found => ping ⟨id, payload, found⟩
            exact .inl ⟨.event event, same, by simp, fun id ended => ⟨_, rfl, ends ▸ ended⟩⟩

end PipeCast.Server
