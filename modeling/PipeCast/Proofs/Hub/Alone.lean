import PipeCast.Proofs.Hub.Operations
import PipeCast.Proofs.Hub.Registry

/-!
# Broadcasts during which nothing else happens

Such a broadcast puts its text into the queue of every registered channel whose receiver
exists, once for each number, and removes the entries of all others. It opens and drops
nothing and hands out no number.
-/

set_option autoImplicit false

namespace PipeCast.Hub

/-! ## One visit after another -/

/-- How far a broadcast has come that has visited the first of these rosters and has the
second to visit. -/
structure Visited (before : Hub) (text : String) (done rest : Roster) (progress : Progress Unit) :
    Prop where
  roster : progress.hub.registry.roster =
    done.filter (fun entry => before.isLive entry.2) ++ rest
  next : progress.hub.registry.next = before.registry.next
  isLive : progress.hub.isLive = before.isLive
  queueOf : ∀ channel, progress.hub.queueOf channel = before.queueOf channel ++
    if before.isLive channel then
      List.replicate (done.countP fun entry => entry.2 = channel) text
    else []
  size : progress.hub.channels.size = before.channels.size
  handles : progress.hub.handles = before.handles
  kept : progress.hub.kept = before.kept
  underway : progress.hub.underway = before.registry.roster :: before.underway
  gone : progress.gone.reverse =
    (done.filter fun entry => !before.isLive entry.2).map Prod.fst
  dropped : progress.dropped = done.countP fun entry => !before.isLive entry.2

namespace Visited

variable {before : Hub} {text : String} {done rest : Roster} {progress : Progress Unit}

theorem begin (before : Hub) (message : Message) :
    Visited before message.text [] before.registry.roster
      ⟨before.begin message, [], 0, ()⟩ where
  roster := rfl
  next := rfl
  isLive := rfl
  queueOf channel := by
    rw [List.countP_nil, List.replicate_zero, ite_self, List.append_nil]
    rfl
  size := rfl
  handles := rfl
  kept := rfl
  underway := rfl
  gone := rfl
  dropped := rfl

theorem visit_live {entry : ClientId × ChannelId} (number : Nat)
    (visited : Visited before text done (entry :: rest) progress)
    (live : before.isLive entry.2 = true) :
    Visited before text (done ++ [entry]) rest
      (progress.visit .none number text entry) := by
  have reached : progress.hub.isLive entry.2 = true := by rw [visited.isLive, live]
  have step : progress.visit .none number text entry =
      { progress with hub := (progress.hub.deliver (.broadcast number entry.1) entry.2 text).1 } := by
    rw [Progress.visit, deliver_of_live _ _ reached]
  rw [step]
  constructor
  · rw [registry_deliver, visited.roster, List.filter_append]
    simp [live]
  · rw [registry_deliver]
    exact visited.next
  · funext channel
    rw [isLive_deliver, visited.isLive]
  · intro channel
    rw [queueOf_deliver, visited.queueOf, List.countP_append, List.countP_singleton]
    by_cases same : entry.2 = channel
    · subst same
      simp [live, reached, List.replicate_succ']
    · simp [same, Ne.symm same]
  · rw [size_channels_deliver]
    exact visited.size
  · rw [deliver_of_live _ _ reached]
    exact visited.handles
  · rw [deliver_of_live _ _ reached]
    exact visited.kept
  · rw [underway_deliver]
    exact visited.underway
  · rw [visited.gone, List.filter_append]
    simp [live]
  · rw [visited.dropped, List.countP_append]
    simp [live]

theorem visit_dead {entry : ClientId × ChannelId} (number : Nat)
    (visited : Visited before text done (entry :: rest) progress)
    (dead : before.isLive entry.2 = false) :
    Visited before text (done ++ [entry]) rest
      (progress.visit .none number text entry) := by
  have failed : progress.hub.isLive entry.2 = false := by rw [visited.isLive, dead]
  have ascending := progress.hub.registry.ascending
  rw [visited.roster] at ascending
  have found : progress.hub.registry.roster.find? entry.1 = some entry.2 := by
    rw [visited.roster]
    exact Roster.find?_of_mem ascending (List.mem_append_right _ List.mem_cons_self)
  have removes : progress.hub.registry.withdraw entry.1 entry.2 =
      (progress.hub.registry.unregister entry.1, true) := by
    rw [Registry.withdraw, if_pos found]
  have step : progress.visit .none number text entry =
      { hub := { progress.hub with
          registry := progress.hub.registry.unregister entry.1
          journal := .withdrawn (.broadcast number entry.1) entry.1 entry.2 true ::
            .delivered (.broadcast number entry.1) entry.2 text false :: progress.hub.journal }
        gone := entry.1 :: progress.gone
        dropped := progress.dropped + 1
        notes := () } := by
    rw [Progress.visit, deliver_of_dead _ _ failed]
    simp only [Interlude.none, withdraw, record, removes]
    rfl
  rw [step]
  constructor
  · change progress.hub.registry.roster.erase entry.1 = _
    rw [visited.roster, Roster.erase_middle ascending, List.filter_append]
    simp [dead]
  · exact visited.next
  · exact visited.isLive
  · intro channel
    change progress.hub.queueOf channel = _
    rw [visited.queueOf, List.countP_append, List.countP_singleton]
    by_cases same : entry.2 = channel
    · subst same
      simp [dead]
    · simp [same]
  · exact visited.size
  · exact visited.handles
  · exact visited.kept
  · exact visited.underway
  · rw [List.reverse_cons, visited.gone, List.filter_append]
    simp [dead]
  · rw [visited.dropped, List.countP_append]
    simp [dead]

theorem visit {entry : ClientId × ChannelId} (number : Nat)
    (visited : Visited before text done (entry :: rest) progress) :
    Visited before text (done ++ [entry]) rest (progress.visit .none number text entry) := by
  cases live : before.isLive entry.2 with
  | true => exact visited.visit_live number live
  | false => exact visited.visit_dead number live

theorem foldl (number : Nat) (visited : Visited before text done rest progress) :
    Visited before text (done ++ rest) []
      (rest.foldl (Progress.visit .none number text) progress) := by
  induction rest generalizing done progress with
  | nil => rwa [List.append_nil]
  | cons entry rest ih =>
      rw [List.foldl_cons, List.append_cons]
      exact ih (visited.visit number)

end Visited

/-! ## The whole broadcast -/

variable (hub : Hub) (message : Message)

theorem exists_visited_broadcast :
    ∃ progress, Visited hub message.text hub.registry.roster [] progress ∧
      (hub.broadcast message).1 = progress.hub.finish hub.begun (hub.broadcast message).2 ∧
      (hub.broadcast message).2 = ⟨message.source, hub.registry.roster.length, progress.dropped,
        progress.gone.reverse⟩ :=
  ⟨_, (Visited.begin hub message).foldl hub.begun, rfl, rfl⟩

theorem roster_broadcast :
    (hub.broadcast message).1.registry.roster =
      hub.registry.roster.filter fun entry => hub.isLive entry.2 := by
  obtain ⟨progress, visited, final, _⟩ := exists_visited_broadcast hub message
  rw [final]
  exact visited.roster.trans (List.append_nil _)

@[simp] theorem next_broadcast :
    (hub.broadcast message).1.registry.next = hub.registry.next := by
  obtain ⟨progress, visited, final, _⟩ := exists_visited_broadcast hub message
  rw [final]
  exact visited.next

@[simp] theorem isLive_broadcast : (hub.broadcast message).1.isLive = hub.isLive := by
  obtain ⟨progress, visited, final, _⟩ := exists_visited_broadcast hub message
  rw [final]
  exact visited.isLive

theorem queueOf_broadcast (channel : ChannelId) :
    (hub.broadcast message).1.queueOf channel = hub.queueOf channel ++
      if hub.isLive channel then
        List.replicate (hub.registry.roster.countP fun entry => entry.2 = channel) message.text
      else [] := by
  obtain ⟨progress, visited, final, _⟩ := exists_visited_broadcast hub message
  rw [final]
  exact visited.queueOf channel

@[simp] theorem size_channels_broadcast :
    (hub.broadcast message).1.channels.size = hub.channels.size := by
  obtain ⟨progress, visited, final, _⟩ := exists_visited_broadcast hub message
  rw [final]
  exact visited.size

@[simp] theorem handles_broadcast : (hub.broadcast message).1.handles = hub.handles := by
  obtain ⟨progress, visited, final, _⟩ := exists_visited_broadcast hub message
  rw [final]
  exact visited.handles

@[simp] theorem kept_broadcast : (hub.broadcast message).1.kept = hub.kept := by
  obtain ⟨progress, visited, final, _⟩ := exists_visited_broadcast hub message
  rw [final]
  exact visited.kept

@[simp] theorem underway_broadcast : (hub.broadcast message).1.underway = hub.underway := by
  obtain ⟨progress, visited, final, _⟩ := exists_visited_broadcast hub message
  rw [final]
  exact congrArg List.tail visited.underway

theorem find?_broadcast (id : ClientId) :
    (hub.broadcast message).1.registry.roster.find? id =
      (hub.registry.roster.find? id).filter hub.isLive := by
  rw [roster_broadcast]
  exact Roster.find?_filter hub.registry.ascending hub.isLive id

/-! ## One broadcast after another -/

/-- The entries that lead to a channel. -/
def entriesOf (hub : Hub) (channel : ChannelId) : Roster :=
  hub.registry.roster.filter fun entry => entry.2 = channel

def broadcastAll (hub : Hub) (messages : List Message) : Hub :=
  messages.foldl (fun hub message => (hub.broadcast message).1) hub

theorem broadcastAll_cons (messages : List Message) :
    hub.broadcastAll (message :: messages) = (hub.broadcast message).1.broadcastAll messages := rfl

theorem broadcastAll_append (first second : List Message) :
    hub.broadcastAll (first ++ second) = (hub.broadcastAll first).broadcastAll second :=
  List.foldl_append

theorem filter_roster_broadcast (keeps : ClientId × ChannelId → Bool) :
    (hub.broadcast message).1.registry.roster.filter keeps =
      (hub.registry.roster.filter keeps).filter fun entry => hub.isLive entry.2 := by
  rw [roster_broadcast, List.filter_filter, List.filter_filter]
  exact List.filter_congr fun entry _ => Bool.and_comm _ _

theorem entriesOf_broadcast {channel : ChannelId} (live : hub.isLive channel = true) :
    (hub.broadcast message).1.entriesOf channel = hub.entriesOf channel := by
  rw [entriesOf, filter_roster_broadcast]
  refine List.filter_eq_self.mpr fun entry given => ?_
  have same : entry.2 = channel := by simpa using (List.mem_filter.mp given).2
  rw [same, live]

theorem isLive_broadcastAll (messages : List Message) :
    (hub.broadcastAll messages).isLive = hub.isLive := by
  induction messages generalizing hub with
  | nil => rfl
  | cons message messages ih => rw [broadcastAll_cons, ih, isLive_broadcast]

theorem entriesOf_broadcastAll {channel : ChannelId} (live : hub.isLive channel = true)
    (messages : List Message) :
    (hub.broadcastAll messages).entriesOf channel = hub.entriesOf channel := by
  induction messages generalizing hub with
  | nil => rfl
  | cons message messages ih =>
      have remains : (hub.broadcast message).1.isLive channel = true := by
        rw [isLive_broadcast, live]
      rw [broadcastAll_cons, ih _ remains, entriesOf_broadcast hub message live]

/-- A channel whose receiver exists gets every text, once for each of its numbers. -/
theorem queueOf_broadcastAll {channel : ChannelId} (live : hub.isLive channel = true)
    (messages : List Message) :
    (hub.broadcastAll messages).queueOf channel = hub.queueOf channel ++
      messages.flatMap fun message =>
        List.replicate (hub.entriesOf channel).length message.text := by
  induction messages generalizing hub with
  | nil => exact (List.append_nil _).symm
  | cons message messages ih =>
      have remains : (hub.broadcast message).1.isLive channel = true := by
        rw [isLive_broadcast, live]
      rw [broadcastAll_cons, ih _ remains, entriesOf_broadcast hub message live, queueOf_broadcast,
        if_pos live, List.countP_eq_length_filter, List.flatMap_cons, List.append_assoc]
      rfl

/-! ## Clients that are gone -/

/-- The entries that lead to no receiver. -/
def stale (hub : Hub) : Roster :=
  hub.registry.roster.filter fun entry => !hub.isLive entry.2

theorem report_broadcast :
    (hub.broadcast message).2 = ⟨message.source, hub.registry.size, hub.stale.length,
      hub.stale.map Prod.fst⟩ := by
  obtain ⟨progress, visited, _, report⟩ := exists_visited_broadcast hub message
  rw [report, visited.dropped, visited.gone, List.countP_eq_length_filter]
  rfl

theorem stale_broadcast : (hub.broadcast message).1.stale = [] := by
  refine List.filter_eq_nil_iff.mpr fun entry remains => ?_
  rw [roster_broadcast] at remains
  simp [(List.mem_filter.mp remains).2]

theorem pairwise_stale : (hub.stale.map Prod.fst).Pairwise (· < ·) :=
  List.pairwise_map.mpr (hub.registry.ascending.filter _)

/-- A broadcast that nothing interrupts leaves the entries that lead to a receiver and counts
all others as gone, each number once. A channel gets one copy of the text for each of its
numbers, if its receiver exists. There is nobody left for the next broadcast to remove. -/
theorem broadcast_sweeps_roster (hub : Hub) (message : Message) :
    let final := (hub.broadcast message).1
    final.registry.roster = hub.registry.roster.filter (fun entry => hub.isLive entry.2) ∧
      final.registry.next = hub.registry.next ∧
      (∀ channel, final.isLive channel = hub.isLive channel ∧
        final.queueOf channel = hub.queueOf channel ++
          if hub.isLive channel then
            List.replicate (hub.registry.roster.countP fun entry => entry.2 = channel) message.text
          else []) ∧
      (hub.broadcast message).2 = ⟨message.source, hub.registry.size, hub.stale.length,
        hub.stale.map Prod.fst⟩ ∧
      (hub.stale.map Prod.fst).Pairwise (· < ·) ∧
      ∀ later, (final.broadcast later).2 = ⟨later.source, final.registry.size, 0, []⟩ := by
  intro final
  refine ⟨roster_broadcast hub message, next_broadcast hub message, fun channel => ⟨?_, ?_⟩,
    report_broadcast hub message, pairwise_stale hub, fun later => ?_⟩
  · exact congrFun (isLive_broadcast hub message) channel
  · exact queueOf_broadcast hub message channel
  · rw [report_broadcast, stale_broadcast]
    rfl

end PipeCast.Hub
