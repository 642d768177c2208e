import PipeCast.Proofs.Hub.Course
import PipeCast.Proofs.Hub.Removal

/-!
# What a queue gains

From whatever hub a run starts, a queue whose receiver is not dropped gains exactly
the texts of the deliveries that reached it and loses exactly what was taken from it.
Nothing else changes a queue: no broadcast that begins, cleans up or ends, and no
registration.
-/

set_option autoImplicit false

namespace PipeCast.Hub

/-- The texts that some deliveries put into the queue of a channel. -/
def receivedBy (channel : ChannelId) (attempts : List Delivery) : List String :=
  (attempts.filter fun attempt => attempt.channel = channel ∧ attempt.succeeded = true).map
    Delivery.text

theorem receivedBy_append (channel : ChannelId) (earlier later : List Delivery) :
    receivedBy channel (earlier ++ later) =
      receivedBy channel earlier ++ receivedBy channel later := by
  simp only [receivedBy, List.filter_append, List.map_append]

theorem receivedBy_singleton (channel : ChannelId) (attempt : Delivery) :
    receivedBy channel [attempt] =
      if channel = attempt.channel ∧ attempt.succeeded = true then [attempt.text] else [] := by
  by_cases reached : channel = attempt.channel ∧ attempt.succeeded = true
  · simp [receivedBy, ← reached.1, reached.2]
  · have apart : ¬ (attempt.channel = channel ∧ attempt.succeeded = true) :=
      fun found => reached ⟨found.1.symm, found.2⟩
    rw [if_neg reached, receivedBy, List.filter_eq_nil_iff.mpr (by simpa using apart)]
    rfl

/-- The receiver of a channel exists, or the channel is still to be opened. -/
def Undropped (channel : ChannelId) (hub : Hub) : Prop :=
  channel < hub.channels.size → hub.isLive channel = true

theorem undropped_congr {left right : Hub} (same : left.channels = right.channels)
    (channel : ChannelId) : left.Undropped channel ↔ right.Undropped channel := by
  rw [Undropped, Undropped, same, isLive_congr same]

/-- What happens between two hubs, with the history that it adds, leaves the receiver of
a channel dropped if it was, and accounts for every text in its queue if it is not. -/
structure Balances (channel : ChannelId) (before after : Hub) (events : List Event) : Prop where
  history : after.history = before.history ++ events
  grows : before.channels.size ≤ after.channels.size
  undropped : after.Undropped channel → before.Undropped channel
  queued : after.Undropped channel →
    drainedFrom channel events ++ after.queueOf channel =
      before.queueOf channel ++ receivedBy channel (deliveries events)

namespace Balances

variable {channel other : ChannelId} {before middle after hub : Hub} {earlier later : List Event}

theorem of_same (channels : after.channels = before.channels)
    (history : after.history = before.history) : Balances channel before after [] where
  history := by rw [history, List.append_nil]
  grows := Nat.le_of_eq (congrArg Array.size channels.symm)
  undropped := (undropped_congr channels channel).mp
  queued _ := by
    rw [queueOf_congr channels]
    exact (List.append_nil _).symm

theorem refl (channel : ChannelId) (hub : Hub) : Balances channel hub hub [] :=
  of_same rfl rfl

theorem trans (first : Balances channel before middle earlier)
    (second : Balances channel middle after later) :
    Balances channel before after (earlier ++ later) where
  history := by rw [second.history, first.history, List.append_assoc]
  grows := Nat.le_trans first.grows second.grows
  undropped live := first.undropped (second.undropped live)
  queued live := by
    rw [drainedFrom_append, List.append_assoc, second.queued live, ← List.append_assoc,
      first.queued (second.undropped live), List.append_assoc, deliveries_append,
      receivedBy_append]

/-- What changes no channel keeps the balance, if it tells of no delivery. -/
theorem of_event {event : Event} (channels : after.channels = before.channels)
    (history : after.history = before.history ++ [event]) (quiet : event.isQuiet = true) :
    Balances channel before after [event] where
  history := history
  grows := Nat.le_of_eq (congrArg Array.size channels.symm)
  undropped := (undropped_congr channels channel).mp
  queued _ := by
    have undelivered : event.delivery? = none := by cases event <;> first | rfl | cases quiet
    have untaken : event.drainedFrom channel = [] := by
      cases event <;> first | rfl | cases quiet
    rw [deliveries_singleton, drainedFrom_singleton, undelivered, untaken,
      queueOf_congr channels]
    exact (List.append_nil _).symm

theorem openChannel (owner : Holder) :
    Balances channel hub (hub.openChannel owner).1 [.opened hub.channels.size] where
  history := history_openChannel hub owner
  grows := by simp [Hub.openChannel, record]
  undropped live below := by
    have larger : (hub.openChannel owner).1.channels.size = hub.channels.size + 1 := by
      simp [Hub.openChannel, record]
    have still := live (larger ▸ Nat.lt_succ_of_lt below)
    simpa [Nat.ne_of_lt below] using still
  queued _ := by simp [receivedBy]

theorem dropReceiver (live : hub.isLive other = true) :
    Balances channel hub (hub.dropReceiver other) [.receiverDropped other] := by
  have apart (undropped : (hub.dropReceiver other).Undropped channel) : channel ≠ other := by
    rintro rfl
    have still := undropped (by simpa using lt_size_of_isLive live)
    simp at still
  refine ⟨history_dropReceiver hub other, by simp, ?_, ?_⟩
  · intro undropped below
    simpa [apart undropped] using undropped (by simpa using below)
  · intro undropped
    simp [apart undropped, receivedBy]

theorem deliver (cause : Cause) (text : String) :
    Balances channel hub (hub.deliver cause other text).1
      [.delivered cause other text (hub.isLive other)] where
  history := history_deliver hub other cause text
  grows := Nat.le_of_eq (size_channels_deliver hub other cause text).symm
  undropped live below := by
    simpa using live (by simpa only [size_channels_deliver] using below)
  queued _ := by
    rw [queueOf_deliver, deliveries_singleton, Event.delivery?, Option.toList_some,
      receivedBy_singleton]
    rfl

theorem drain :
    Balances channel hub (hub.drain other).1
      [.drained other (hub.queueOf other) (!hub.isHeld other)] where
  history := history_drain hub other
  grows := by simp
  undropped live below := by simpa using live (by simpa using below)
  queued _ := by
    by_cases same : channel = other
    · simp [same, receivedBy]
    · simp [same, Ne.symm same, receivedBy]

/-- Every operation keeps the balance since some earlier hub. -/
theorem isKept (channel : ChannelId) (before : Hub) :
    IsKept fun hub => ∃ events, Balances channel before hub events where
  openChannel owner := fun ⟨_, since⟩ => ⟨_, since.trans (openChannel owner)⟩
  dropHandle _ := fun ⟨_, since⟩ => ⟨_, since.trans (of_same rfl rfl)⟩
  addHandle _ _ _ _ := fun ⟨_, since⟩ => ⟨_, since.trans (of_same rfl rfl)⟩
  dropReceiver live := fun ⟨_, since⟩ => ⟨_, since.trans (dropReceiver live)⟩
  deliver text _ := fun ⟨_, since⟩ => ⟨_, since.trans (deliver .direct text)⟩
  drain _ := fun ⟨_, since⟩ => ⟨_, since.trans drain⟩
  issue := fun ⟨_, since⟩ => ⟨_, since.trans (of_event rfl (history_issue _) rfl)⟩
  register id _ _ _ := fun ⟨_, since⟩ =>
    ⟨_, since.trans (of_event rfl (history_register _ _ id) rfl)⟩
  unregister id := fun ⟨_, since⟩ =>
    ⟨_, since.trans (of_event rfl (history_unregister _ id) rfl)⟩
  withdraw id _ channel _ := fun ⟨_, since⟩ =>
    ⟨_, since.trans (of_event rfl (history_withdraw _ channel .direct id) rfl)⟩
  keep _ := fun ⟨_, since⟩ => ⟨_, since.trans (of_same rfl rfl)⟩
  release _ := fun ⟨_, since⟩ => ⟨_, since.trans (of_same rfl rfl)⟩

end Balances

namespace Moment

variable {first moment next : Moment} {passed : List Moment}

theorem Next.balances (move : Next moment next) (channel : ChannelId) :
    ∃ events, Balances channel moment.hub next.hub events := by
  cases move with
  | act plain => exact (Balances.isKept channel _).run ⟨[], .refl channel _⟩ plain
  | read => exact ⟨[], .refl channel _⟩
  | begin => exact ⟨_, .of_event rfl (history_begin _ _) rfl⟩
  | reach | miss => exact ⟨_, .deliver _ _⟩
  | remove => exact ⟨_, .of_event rfl (history_withdraw _ _ _ _) rfl⟩
  | finish => exact ⟨_, .of_event rfl (history_finish _ _ _) rfl⟩

theorem Passes.balances (passes : Passes first passed moment) (channel : ChannelId) :
    ∃ events, Balances channel first.hub moment.hub events := by
  induction passes with
  | here => exact ⟨[], .refl channel _⟩
  | move _ move ih =>
      obtain ⟨earlier, before⟩ := ih
      obtain ⟨later, after⟩ := move.balances channel
      exact ⟨earlier ++ later, before.trans after⟩

/-- A receiver that exists after some moves, and whose channel was open before them,
existed throughout. -/
theorem Passes.isLive {middle : Moment} {earlier later : List Moment} {channel : ChannelId}
    (passes : Passes first (earlier ++ middle :: later) moment)
    (present : channel < first.hub.channels.size) (live : moment.hub.isLive channel = true) :
    middle.hub.isLive channel = true := by
  obtain ⟨before, next, move, after⟩ := passes.split
  obtain ⟨_, sooner⟩ := before.balances channel
  obtain ⟨_, turn⟩ := move.balances channel
  obtain ⟨_, rest⟩ := after.balances channel
  have undropped : middle.hub.Undropped channel :=
    turn.undropped (rest.undropped fun _ => live)
  exact undropped (Nat.lt_of_lt_of_le present sooner.grows)

/-- What some moves take from a channel and what waits there afterwards is what waited
before and the texts of the deliveries that reached the channel. -/
def Conserve (passed : List Moment) (channel : ChannelId) (before after : Hub) : Prop :=
  passed.flatMap (taken channel) ++ after.queueOf channel =
    before.queueOf channel ++ receivedBy channel (passed.filterMap due)

theorem Passes.conserve (passes : Passes first passed moment) {channel : ChannelId}
    (live : moment.hub.isLive channel = true) :
    Conserve passed channel first.hub moment.hub := by
  obtain ⟨events, balances⟩ := passes.balances channel
  obtain ⟨delivered, drained, _⟩ := passes.told
  have told : deliveries events = passed.filterMap due := by
    rw [balances.history, deliveries_append] at delivered
    exact List.append_cancel_left delivered
  have withdrawn : drainedFrom channel events = passed.flatMap (taken channel) := by
    have since := drained channel
    rw [balances.history, drainedFrom_append] at since
    exact List.append_cancel_left since
  have queued := balances.queued fun _ => live
  rwa [told, withdrawn] at queued

/-- The moves of a broadcast change no receiver, and no queue but by their deliveries. -/
theorem Next.of_isBroadcasting (move : Next moment next) (busy : moment.isBroadcasting = true) :
    next.hub.isLive = moment.hub.isLive ∧
    ∀ channel, next.hub.queueOf channel =
      moment.hub.queueOf channel ++ receivedBy channel moment.due.toList := by
  cases move with
  | act plain => simp [isBroadcasting, plain] at busy
  | read | begin => exact ⟨rfl, fun _ => (List.append_nil _).symm⟩
  | reach idle next | miss idle next =>
      refine ⟨funext fun _ => isLive_deliver .., fun channel => ?_⟩
      rw [due_of_idle idle next, Option.toList_some, receivedBy_singleton]
      exact queueOf_deliver ..
  | remove failed =>
      rw [due_of_failed failed]
      exact ⟨rfl, fun _ => (List.append_nil _).symm⟩
  | finish idle done =>
      rw [due_of_done done]
      exact ⟨rfl, fun _ => (List.append_nil _).symm⟩

end Moment

end PipeCast.Hub
