import PipeCast.Proofs.Server.Membership

/-!
# What nobody notices

A server that does not relay what its clients say is moved by their coming and going alone. A
text, a binary message, a pong and a ping that can be answered leave the hub and the connections
as they are, and of what was put on the wire they add a pong at most. Such an act may be dropped,
added or changed anywhere in a run, and neither the other clients nor a request for the health of
the server can tell. A server that relays passes on texts, and the rest stays unnoticed.

A ping that cannot be answered is different. Its answer fails to be written, the connection ends
as after a failed read, and its entry leaves the registry.
-/

set_option autoImplicit false

namespace PipeCast.Server

/-! ## Silent acts -/

/-- Whether an act is a frame of a client that no other client is to learn of. -/
def Act.isFrame (relays : Bool) : Act → Bool
  | .move (.event (.received _ (.text _))) => !relays
  | .move (.event (.received _ (.binary _))) => true
  | .move (.event (.received _ (.ping _))) => true
  | .move (.event (.received _ .pong)) => true
  | _ => false

/-- Whether an act is the turn of a writer that has nothing to do. -/
def isIdle (server : Server) : Act → Bool
  | .move (.turn id) =>
      (server.connection? id).all fun connection =>
        connection.writer ≠ .running || server.hub.queueOf connection.channel = []
  | _ => false

def isSilent (server : Server) (act : Act) : Bool :=
  (act.isFrame server.relaysClients && !server.isUnanswerable act) || server.isIdle act

/-! ## Sights -/

def Sent.isPong : Sent → Bool
  | .pong _ => true
  | _ => false

/-- Texts, closes and ends of streams, oldest first, with the client that each went to. -/
def withoutPongs (sent : List (ClientId × Sent)) : List (ClientId × Sent) :=
  (sent.filter fun entry => !entry.2.isPong).reverse

def told (server : Server) : List (ClientId × Sent) :=
  withoutPongs server.sent

/-- What can be seen of a server right after an act. -/
structure Sight where
  registry : Hub.Registry
  /-- The numbers of all connections ever made, in order. -/
  ids : List ClientId
  told : List (ClientId × Sent)
  /-- The response, if the act was a request. -/
  response : Option Http.Response

def sight (server : Server) (act : Act) : Sight where
  registry := server.hub.registry
  ids := server.connections.map Connection.id
  told := server.told
  response :=
    match act with
    | .request canUpgrade request => some (Http.respond server.clients canUpgrade request)
    | .move _ => none

/-- The acts of a run that are not silent, and what is seen after each. -/
def course (server : Server) : List Act → List (Act × Sight)
  | [] => []
  | act :: acts =>
      let after := server.perform act
      if server.isSilent act then after.course acts
      else (act, after.sight act) :: after.course acts

/-- The acts of a run that are not silent. -/
def noticed (server : Server) (acts : List Act) : List Act :=
  (server.course acts).map Prod.fst

/-! ## The account is not read -/

/-- A server with an earlier account below its own. -/
def above (server : Server) (notes : List Note) (sent : List (ClientId × Sent)) : Server :=
  { server with notes := server.notes ++ notes, sent := server.sent ++ sent }

/-- A server without its account. -/
def bare (server : Server) : Server :=
  { server with notes := [], sent := [] }

section

variable (server : Server) (notes : List Note) (sent : List (ClientId × Sent))

theorem connection?_above (id : ClientId) :
    (server.above notes sent).connection? id = server.connection? id := rfl

theorem told_above : (server.above notes sent).told = withoutPongs sent ++ server.told := by
  simp [told, withoutPongs, above]

theorem broadcast_above (message : Message) :
    (server.above notes sent).broadcast message = (server.broadcast message).above notes sent := by
  simp [broadcast, above]

theorem write_above (connection : Connection) (reaches : Bool) :
    (server.above notes sent).write connection reaches =
      (server.write connection reaches).above notes sent := by
  -- The two conditions are the same by definition only, so each is restated for its side.
  by_cases still : connection.writer ≠ .running ∨ server.hub.queueOf connection.channel = []
  · have stillAbove : connection.writer ≠ .running ∨
        (server.above notes sent).hub.queueOf connection.channel = [] := still
    rw [write, if_pos stillAbove, write, if_pos still]
  · have actsAbove : ¬(connection.writer ≠ .running ∨
        (server.above notes sent).hub.queueOf connection.channel = []) := still
    rw [write, if_neg actsAbove, write, if_neg still]
    cases reaches with
    | true => simp [above]
    | false => rfl

theorem closeWire_above (connection : Connection) (ending : Ending) :
    (server.above notes sent).closeWire connection ending =
      (server.closeWire connection ending).above notes sent := by
  cases ending with
  | vanished => rfl
  | faulted | closed reason =>
      simp only [closeWire]
      split <;> rfl

theorem finishWriter_above (id : ClientId) (ending : Ending) :
    (server.above notes sent).finishWriter id ending =
      (server.finishWriter id ending).above notes sent := by
  unfold finishWriter
  rw [connection?_above]
  cases found : server.connection? id with
  | none => rfl
  | some connection =>
      obtain ⟨_, rfl⟩ := mem_of_connection? found
      dsimp only
      by_cases waits : connection.writer ≠ .running ∨ server.hub.isHeld connection.channel
      · have waitsAbove : connection.writer ≠ .running ∨
            (server.above notes sent).hub.isHeld connection.channel := waits
        rw [if_pos waitsAbove, if_pos waits]
      · have endsAbove : ¬(connection.writer ≠ .running ∨
            (server.above notes sent).hub.isHeld connection.channel) := waits
        rw [if_neg endsAbove, if_neg waits]
        exact closeWire_above (stop server connection .finished) notes sent connection ending

theorem finish_above (connection : Connection) (ending : Ending) :
    (server.above notes sent).finish connection ending =
      (server.finish connection ending).above notes sent := by
  have left : leave (server.above notes sent) connection =
      (leave server connection).above notes sent := rfl
  rw [finish_eq, finish_eq, left, write_above, finishWriter_above]
  dsimp only
  split <;> rfl

theorem connect_above :
    (server.above notes sent).connect.1 = server.connect.1.above notes sent :=
  broadcast_above ((enroll server).note (.connected server.hub.issue.2 (enroll server).clients))
    notes sent .joined

theorem onOpen_above (id : ClientId) {act actAbove : Connection → Server}
    (same : ∀ connection, actAbove connection = (act connection).above notes sent) :
    (server.above notes sent).onOpen id actAbove = (server.onOpen id act).above notes sent := by
  unfold onOpen
  rw [connection?_above]
  cases server.connection? id with
  | none => rfl
  | some connection =>
      dsimp only
      cases connection.isOpen with
      | true => exact same connection
      | false => rfl

theorem receive_above (id : ClientId) (inbound : WebSocket.Inbound) :
    (server.above notes sent).receive id inbound =
      (server.receive id inbound).above notes sent := by
  refine onOpen_above server notes sent id fun connection => ?_
  cases inbound with
  | text message =>
      let noted := server.note (.said id (Text.Preview.of message))
      change (if server.relaysClients then (noted.above notes sent).broadcast (.said id message)
        else noted.above notes sent) = (if server.relaysClients then
          noted.broadcast (.said id message) else noted).above notes sent
      split
      · exact broadcast_above noted notes sent _
      · rfl
  | binary | ping | pong => rfl
  | close reason => exact finish_above server notes sent connection _

theorem handle_above (event : Event) :
    (server.above notes sent).handle event = (server.handle event).above notes sent := by
  cases event with
  | connect => exact connect_above server notes sent
  | received id inbound => exact receive_above server notes sent id inbound
  | readFails id =>
      exact onOpen_above server notes sent id fun connection =>
        finish_above (server.note _) notes sent connection .faulted
  | vanished id =>
      exact onOpen_above server notes sent id fun connection =>
        finish_above (server.note _) notes sent connection .vanished
  | writesFail id => exact onOpen_above server notes sent id fun _ => rfl
  | line text => exact broadcast_above server notes sent _

theorem move_above (made : Move) :
    move (server.above notes sent) made = (move server made).above notes sent := by
  cases made with
  | event event => exact handle_above server notes sent event
  | turn id =>
      rw [move, move, connection?_above]
      cases server.connection? id with
      | none => rfl
      | some connection => exact write_above server notes sent connection _

theorem handOn_above (id : ClientId) (inbound : WebSocket.Inbound) :
    Gateway.handOn id (server.above notes sent) inbound =
      (Gateway.handOn id server inbound).above notes sent := by
  cases inbound with
  | ping payload =>
      refine onOpen_above server notes sent id fun connection => ?_
      split
      · rfl
      · exact handle_above server notes sent (.readFails id)
  | text message => exact receive_above server notes sent id (.text message)
  | binary length => exact receive_above server notes sent id (.binary length)
  | pong => exact receive_above server notes sent id .pong
  | close reason => exact receive_above server notes sent id (.close reason)

theorem perform_above (act : Act) :
    (server.above notes sent).perform act = (server.perform act).above notes sent := by
  unfold perform
  split
  · exact handOn_above server notes sent _ _
  · exact move_above server notes sent _
  · rfl

end

/-! ## Servers that look alike -/

/-- Two servers that differ in their accounts only, and there in notes and pongs only. -/
structure Alike (left right : Server) : Prop where
  bare : left.bare = right.bare
  told : left.told = right.told

namespace Alike

variable {left middle right : Server}

theorem refl (server : Server) : Alike server server := ⟨rfl, rfl⟩

theorem symm (alike : Alike left right) : Alike right left := ⟨alike.bare.symm, alike.told.symm⟩

theorem trans (first : Alike left middle) (second : Alike middle right) : Alike left right :=
  ⟨first.bare.trans second.bare, first.told.trans second.told⟩

theorem isSilent_eq (alike : Alike left right) (act : Act) :
    left.isSilent act = right.isSilent act :=
  congrArg (fun server => server.isSilent act) alike.bare

theorem sight_eq (alike : Alike left right) (act : Act) : left.sight act = right.sight act :=
  calc left.sight act
    _ = { left.bare.sight act with told := left.told } := rfl
    _ = { right.bare.sight act with told := right.told } := by rw [alike.bare, alike.told]
    _ = right.sight act := rfl

theorem perform (alike : Alike left right) (act : Act) :
    Alike (left.perform act) (right.perform act) := by
  have leftAbove : left.perform act = _ := perform_above left.bare left.notes left.sent act
  have rightAbove : right.perform act = _ := perform_above right.bare right.notes right.sent act
  rw [leftAbove, rightAbove, alike.bare]
  refine ⟨rfl, ?_⟩
  rw [told_above, told_above]
  exact congrArg (· ++ _) alike.told

theorem of_onOpen {server : Server} {id : ClientId} {act : Connection → Server}
    (acted : ∀ connection, server.connection? id = some connection → connection.isOpen = true →
      Alike (act connection) server) : Alike (server.onOpen id act) server := by
  rcases onOpen_cases server id act with ⟨same, _⟩ | ⟨connection, found, isOpen, same⟩
  · rw [same]
    exact refl server
  · rw [same]
    exact acted connection found isOpen

/-- A frame that no other client is to learn of leaves a note or a pong at most. -/
theorem of_frame {server : Server} {act : Act} (frame : act.isFrame server.relaysClients = true)
    (answerable : server.isUnanswerable act = false) : Alike (server.perform act) server := by
  unfold Act.isFrame at frame
  split at frame
  · refine of_onOpen fun connection _ _ => ?_
    change Alike (if server.relaysClients then _ else server.note _) server
    rw [if_neg (by simpa using frame)]
    exact ⟨rfl, rfl⟩
  · exact of_onOpen fun connection _ _ => ⟨rfl, rfl⟩
  · refine of_onOpen fun connection found isOpen => ?_
    have writable : connection.isWritable = true := by
      simpa [isUnanswerable, found, isOpen] using answerable
    rw [if_pos writable]
    exact ⟨rfl, rfl⟩
  · exact of_onOpen fun connection _ _ => refl server
  · cases frame

theorem of_idle {server : Server} {act : Act} (idle : server.isIdle act = true) :
    Alike (server.perform act) server := by
  unfold isIdle at idle
  split at idle
  · rename_i id
    change Alike (move server (.turn id)) server
    have rests : move server (.turn id) = server := by
      rw [move]
      cases found : server.connection? id with
      | none => rfl
      | some connection =>
          have still : connection.writer ≠ .running ∨
              server.hub.queueOf connection.channel = [] := by
            simpa [found] using idle
          exact if_pos still
    rw [rests]
    exact refl server
  · cases idle

/-- A silent act leaves a server that looks as it did before. -/
theorem of_silent {server : Server} {act : Act} (silent : server.isSilent act = true) :
    Alike (server.perform act) server := by
  rcases Bool.or_eq_true_iff.mp silent with unnoticed | idle
  · obtain ⟨frame, answerable⟩ := Bool.and_eq_true_iff.mp unnoticed
    exact of_frame frame (by simpa using answerable)
  · exact of_idle idle

end Alike

theorem course_of_silent {server : Server} {act : Act} (silent : server.isSilent act = true)
    (acts : List Act) : server.course (act :: acts) = (server.perform act).course acts :=
  if_pos silent

theorem course_of_noticed {server : Server} {act : Act} (noticed : server.isSilent act = false)
    (acts : List Act) :
    server.course (act :: acts) =
      (act, (server.perform act).sight act) :: (server.perform act).course acts := by
  rw [course, noticed]
  rfl

namespace Alike

variable {left right : Server}

theorem foldl (alike : Alike left right) (acts : List Act) :
    Alike (acts.foldl Server.perform left) (acts.foldl Server.perform right) := by
  induction acts generalizing left right with
  | nil => exact alike
  | cons act acts ih => exact ih (alike.perform act)

theorem course_eq (alike : Alike left right) (acts : List Act) :
    left.course acts = right.course acts := by
  induction acts generalizing left right with
  | nil => rfl
  | cons act acts ih =>
      have performed := alike.perform act
      have rest := ih performed
      cases silent : left.isSilent act with
      | true =>
          rw [course_of_silent silent, course_of_silent ((alike.isSilent_eq act).symm.trans silent),
            rest]
      | false =>
          rw [course_of_noticed silent,
            course_of_noticed ((alike.isSilent_eq act).symm.trans silent), rest,
            performed.sight_eq act]

end Alike

/-! ## Runs without some of their silent acts -/

/-- The second run is the first without some acts that are silent when they come. -/
inductive Thinned : Server → List Act → List Act → Prop where
  | nil {server : Server} : Thinned server [] []
  | keep {server : Server} {act : Act} {acts others : List Act} :
      Thinned (server.perform act) acts others → Thinned server (act :: acts) (act :: others)
  | drop {server : Server} {act : Act} {acts others : List Act} :
      server.isSilent act = true → Thinned (server.perform act) acts others →
      Thinned server (act :: acts) others

/-- Without them everything else happens as it did. -/
theorem Thinned.course_eq {server : Server} {acts others : List Act}
    (thinned : Thinned server acts others) :
    server.course others = server.course acts ∧
      Alike (others.foldl perform server) (acts.foldl perform server) := by
  induction thinned with
  | nil => exact ⟨rfl, .refl _⟩
  | @keep server act acts others _ ih =>
      obtain ⟨courses, finals⟩ := ih
      refine ⟨?_, finals⟩
      cases silent : server.isSilent act with
      | true => rw [course_of_silent silent, course_of_silent silent, courses]
      | false => rw [course_of_noticed silent, course_of_noticed silent, courses]
  | @drop server act acts others silent _ ih =>
      obtain ⟨courses, finals⟩ := ih
      -- Without the act the others start from the server before it, which looks like the one after.
      have same := (Alike.of_silent silent).symm
      rw [course_of_silent silent]
      exact ⟨(same.course_eq others).trans courses, (same.foldl others).trans finals⟩

/-- Two runs that become the same without such acts do not differ in anything else. -/
theorem Thinned.agree {server : Server} {first second common : List Act}
    (left : Thinned server first common) (right : Thinned server second common) :
    server.course first = server.course second ∧
      Alike (first.foldl perform server) (second.foldl perform server) := by
  obtain ⟨leftCourse, leftFinal⟩ := left.course_eq
  obtain ⟨rightCourse, rightFinal⟩ := right.course_eq
  exact ⟨leftCourse.symm.trans rightCourse, leftFinal.symm.trans rightFinal⟩

theorem thinned_noticed (server : Server) (acts : List Act) :
    Thinned server acts (server.noticed acts) := by
  induction acts generalizing server with
  | nil => exact .nil
  | cons act acts ih =>
      cases silent : server.isSilent act with
      | true =>
          rw [noticed, course_of_silent silent]
          exact .drop silent (ih (server.perform act))
      | false =>
          rw [noticed, course_of_noticed silent]
          exact .keep (ih (server.perform act))

/-- Where every ping could be answered, the frames are among the silent acts. -/
theorem thinned_filter {relays : Bool} {server : Server} {acts : List Act}
    (answered : ∀ act ∈ server.noticed acts, act.isFrame relays = false) :
    Thinned server acts (acts.filter fun act => !act.isFrame relays) := by
  induction acts generalizing server with
  | nil => exact .nil
  | cons act acts ih =>
      rw [List.filter_cons]
      cases silent : server.isSilent act with
      | true =>
          rw [noticed, course_of_silent silent] at answered
          split
          · exact .keep (ih answered)
          · exact .drop silent (ih answered)
      | false =>
          rw [noticed, course_of_noticed silent, List.map_cons] at answered
          obtain ⟨other, answeredLater⟩ := List.forall_mem_cons.mp answered
          rw [if_pos (by simp [other])]
          exact .keep (ih answeredLater)

/-- A run can be told from another by the acts that are not silent and by nothing else. Texts of
a server that does not relay, binary messages, pongs and pings that can be answered may be left
out, some or all of them, and exchanged for any others. After every other act the registry, the
numbers, the texts and closes on every wire and the response are the same, and in the end the
hub and the connections are. So two runs with the same acts apart from frames do not differ if
every ping in them could be answered. -/
theorem silent_acts_unnoticed (relays : Bool) :
    let start := Server.fresh relays
    (∀ acts others : List Act, Thinned start acts others →
      start.course others = start.course acts ∧
        Alike (others.foldl perform start) (acts.foldl perform start)) ∧
    (∀ first second : List Act, start.noticed first = start.noticed second →
      start.course first = start.course second ∧
        Alike (first.foldl perform start) (second.foldl perform start)) ∧
    ∀ first second : List Act,
      (first.filter fun act => !act.isFrame relays) =
        second.filter (fun act => !act.isFrame relays) →
      (∀ act ∈ start.noticed first ++ start.noticed second, act.isFrame relays = false) →
      start.course first = start.course second ∧
        Alike (first.foldl perform start) (second.foldl perform start) := by
  intro start
  refine ⟨fun acts others thinned => thinned.course_eq, fun first second same => ?_,
    fun first second same answered => ?_⟩
  · refine (start.thinned_noticed first).agree ?_
    rw [same]
    exact start.thinned_noticed second
  · obtain ⟨answeredFirst, answeredSecond⟩ := List.forall_mem_append.mp answered
    refine (thinned_filter answeredFirst).agree ?_
    rw [same]
    exact thinned_filter answeredSecond

/-- What a client says before and after a line is not noticed where nothing is relayed. -/
theorem chatter_unnoticed :
    let start := Server.fresh false
    let health := Act.request false ⟨"GET", "/health", []⟩
    let joins := [Act.move (.event .connect), .move (.turn 1)]
    let hi := Act.move (.event (.received 1 (.text "hi")))
    let news := [Act.move (.event (.line "news")), .move (.turn 1)]
    let first := joins ++ hi :: news ++ [.move (.event (.received 1 (.ping [1]))), health]
    let second := joins ++ .move (.event (.received 1 (.binary 3))) :: news ++ [health]
    Thinned start (joins ++ hi :: news) (joins ++ news) ∧
      start.course (joins ++ news) = start.course (joins ++ hi :: news) ∧
      start.noticed first = start.noticed second ∧
      start.course first = start.course second ∧
      (∀ act ∈ start.noticed first ++ start.noticed second, act.isFrame false = false) ∧
      Alike (first.foldl perform start) (second.foldl perform start) ∧
      (start.course first).map (·.2.response) =
        [none, none, none, none, some (Http.health 1)] := by
  intro start health joins hi news first second
  obtain ⟨without, all, frames⟩ := silent_acts_unnoticed false
  have thinned : Thinned start (joins ++ hi :: news) (joins ++ news) :=
    .keep (.keep (.drop (by decide) (.keep (.keep .nil))))
  have same : start.noticed first = start.noticed second := by decide
  have answered : ∀ act ∈ start.noticed first ++ start.noticed second,
      act.isFrame false = false := by decide
  exact ⟨thinned, (without _ _ thinned).1, same, (all first second same).1, answered,
    (frames first second rfl answered).2, by decide⟩

/-- A ping of a client to whom nothing can be written any more ends its connection, which takes
its entry out of the registry and out of the health of the server. -/
theorem unanswered_ping_noticed :
    let joins := [Act.move (.event .connect), .move (.turn 1), .move (.event (.writesFail 1))]
    let ping := Act.move (.event (.received 1 (.ping [])))
    let health := Act.request false ⟨"GET", "/health", []⟩
    let pinged := (joins ++ [ping, health]).foldl perform (Server.fresh false)
    let still := (joins ++ [health]).foldl perform (Server.fresh false)
    ((joins ++ [ping, health]).filter fun act => !act.isFrame false) = joins ++ [health] ∧
      pinged.hub.registry.roster = [] ∧ still.hub.registry.roster = [(1, 0)] ∧
      (pinged.sight health).response = some (Http.health 0) ∧
      (still.sight health).response = some (Http.health 1) ∧ Http.health 0 ≠ Http.health 1 := by
  decide

end PipeCast.Server
