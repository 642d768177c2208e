import PipeCast.Proofs.Hub.Kept

/-!
# Deliveries and what becomes of them

The history of a hub tells which texts were delivered to a channel and which were
taken from it. As long as the receiver of a channel exists, the texts taken and the
texts that wait are together the texts delivered, in the same order. A delivery
fails only where the receiver has been dropped, and a receiver that has been
dropped stays so.
-/

set_option autoImplicit false

namespace PipeCast.Hub

/-- An attempt to deliver. -/
structure Delivery where
  cause : Cause
  channel : ChannelId
  text : String
  succeeded : Bool
  deriving DecidableEq, Repr

@[simp] def Event.delivery? : Event → Option Delivery
  | .delivered cause channel text succeeded => some ⟨cause, channel, text, succeeded⟩
  | _ => none

/-- The attempts to deliver among some events, in order. -/
def deliveries (events : List Event) : List Delivery :=
  events.filterMap Event.delivery?

def deliveriesTo (channel : ChannelId) (events : List Event) : List Delivery :=
  (deliveries events).filter fun delivery => delivery.channel = channel

@[simp] def Event.drainedFrom (channel : ChannelId) : Event → List String
  | .drained found texts _ => if found = channel then texts else []
  | _ => []

/-- What was taken from one channel, in order. -/
def drainedFrom (channel : ChannelId) (events : List Event) : List String :=
  events.flatMap (Event.drainedFrom channel)

section

variable (channel : ChannelId) (event : Event) (earlier later : List Event)

@[simp] theorem deliveries_append :
    deliveries (earlier ++ later) = deliveries earlier ++ deliveries later :=
  List.filterMap_append

@[simp] theorem deliveriesTo_append :
    deliveriesTo channel (earlier ++ later) =
      deliveriesTo channel earlier ++ deliveriesTo channel later := by
  rw [deliveriesTo, deliveries_append, List.filter_append]
  rfl

@[simp] theorem drainedFrom_append :
    drainedFrom channel (earlier ++ later) =
      drainedFrom channel earlier ++ drainedFrom channel later :=
  List.flatMap_append

@[simp] theorem deliveries_singleton : deliveries [event] = event.delivery?.toList := by
  cases event <;> rfl

@[simp] theorem deliveriesTo_singleton :
    deliveriesTo channel [event] =
      event.delivery?.toList.filter fun delivery => delivery.channel = channel := by
  rw [deliveriesTo, deliveries_singleton]

@[simp] theorem drainedFrom_singleton : drainedFrom channel [event] = event.drainedFrom channel :=
  List.flatMap_singleton _ _

end

def Event.isQuiet : Event → Bool
  | .delivered _ _ _ _ | .drained _ _ _ | .receiverDropped _ => false
  | _ => true

/-! ## The account of a hub -/

/-- The history accounts for every queue and every receiver. -/
structure Accounted (hub : Hub) : Prop extends Bounded hub where
  dropped : ∀ channel, .receiverDropped channel ∈ hub.history ↔
    channel < hub.channels.size ∧ hub.isLive channel = false
  queued : ∀ channel, .receiverDropped channel ∉ hub.history →
    drainedFrom channel hub.history ++ hub.queueOf channel =
      (deliveriesTo channel hub.history).map Delivery.text
  failed : ∀ delivery ∈ deliveries hub.history, delivery.succeeded = false →
    .receiverDropped delivery.channel ∈ hub.history

namespace Accounted

variable {hub changed : Hub} {channel : ChannelId}

theorem fresh : Hub.fresh.Accounted where
  toBounded := .fresh
  dropped _ := by simp [Hub.fresh, history]
  queued _ _ := by simp [Hub.fresh, history, queueOf, drainedFrom, deliveriesTo, deliveries]
  failed _ member := by simp [Hub.fresh, history, deliveries] at member

theorem undropped_of_isLive (accounted : hub.Accounted) (live : hub.isLive channel = true) :
    .receiverDropped channel ∉ hub.history := by
  intro dropped
  have gone := (accounted.dropped channel).mp dropped
  rw [live] at gone
  cases gone.2

theorem of_same (accounted : hub.Accounted) (bounded : changed.Bounded)
    (channels : changed.channels = hub.channels) (history : changed.history = hub.history) :
    changed.Accounted where
  toBounded := bounded
  dropped := by
    rw [history, channels, isLive_congr channels]
    exact accounted.dropped
  queued := by
    rw [history, queueOf_congr channels]
    exact accounted.queued
  failed := by
    rw [history]
    exact accounted.failed

theorem of_event (accounted : hub.Accounted) (bounded : changed.Bounded) {event : Event}
    (history : changed.history = hub.history ++ [event])
    (dropped : ∀ channel, channel < changed.channels.size ∧ changed.isLive channel = false ↔
      (channel < hub.channels.size ∧ hub.isLive channel = false) ∨
        event = .receiverDropped channel)
    (queued : ∀ channel, event ≠ .receiverDropped channel →
      (channel < hub.channels.size → hub.isLive channel = true) →
      event.drainedFrom channel ++ changed.queueOf channel =
        hub.queueOf channel ++ (deliveriesTo channel [event]).map Delivery.text)
    (failed : ∀ delivery, event.delivery? = some delivery → delivery.succeeded = false →
      delivery.channel < hub.channels.size ∧ hub.isLive delivery.channel = false) :
    changed.Accounted where
  toBounded := bounded
  dropped channel := by
    rw [history, dropped, ← accounted.dropped, List.mem_append, List.mem_singleton, eq_comm]
  queued channel undropped := by
    rw [history, List.mem_append, List.mem_singleton, not_or] at undropped
    have live (present : channel < hub.channels.size) : hub.isLive channel = true := by
      rw [← Bool.not_eq_false]
      exact fun dead => undropped.1 ((accounted.dropped channel).mpr ⟨present, dead⟩)
    rw [history, drainedFrom_append, drainedFrom_singleton, List.append_assoc,
      queued channel (Ne.symm undropped.2) live, ← List.append_assoc,
      accounted.queued channel undropped.1, deliveriesTo_append, List.map_append]
  failed delivery member fails := by
    rw [history, deliveries_append, deliveries_singleton] at member
    rw [history]
    refine List.mem_append_left _ ?_
    rcases List.mem_append.mp member with old | last
    · exact accounted.failed delivery old fails
    · exact (accounted.dropped _).mpr (failed delivery (Option.mem_toList.mp last) fails)

theorem of_quiet (accounted : hub.Accounted) (bounded : changed.Bounded)
    (channels : changed.channels = hub.channels) {event : Event}
    (history : changed.history = hub.history ++ [event]) (quiet : event.isQuiet = true) :
    changed.Accounted := by
  have nothing : event.delivery? = none := by cases event <;> first | rfl | cases quiet
  refine accounted.of_event bounded history ?_ ?_ ?_
  · intro channel
    have other : event ≠ .receiverDropped channel := by
      intro same
      simp [same, Event.isQuiet] at quiet
    rw [channels, isLive_congr channels, or_iff_left other]
  · intro channel _ _
    have taken : event.drainedFrom channel = [] := by cases event <;> first | rfl | cases quiet
    rw [taken, deliveriesTo_singleton, nothing, queueOf_congr channels]
    simp
  · intro delivery found
    rw [nothing] at found
    cases found

theorem openChannel (accounted : hub.Accounted) (owner : Holder) :
    (hub.openChannel owner).1.Accounted := by
  have size : (hub.openChannel owner).1.channels.size = hub.channels.size + 1 := by
    simp [Hub.openChannel, record]
  refine accounted.of_event (accounted.toBounded.openChannel owner)
    (hub.history_openChannel owner) ?_ ?_ ?_
  · intro channel
    rw [size, isLive_openChannel]
    by_cases opened : channel = hub.channels.size
    · simp [opened]
    · have below : channel < hub.channels.size + 1 ↔ channel < hub.channels.size := by omega
      simp [opened, below]
  · simp
  · simp

theorem dropReceiver (accounted : hub.Accounted) (live : hub.isLive channel = true) :
    (hub.dropReceiver channel).Accounted := by
  have size : (hub.dropReceiver channel).channels.size = hub.channels.size := by
    simp [Hub.dropReceiver, record]
  refine accounted.of_event accounted.toBounded.dropReceiver
    (hub.history_dropReceiver channel) ?_ ?_ ?_
  · intro other
    rw [size, isLive_dropReceiver]
    by_cases same : other = channel
    · simp [same, lt_size_of_isLive live]
    · simp [same, Ne.symm same]
  · intro other different _
    have apart : other ≠ channel := fun same => different (congrArg _ same.symm)
    simp [apart]
  · simp

theorem deliver (accounted : hub.Accounted) (cause : Cause) (text : String)
    (present : channel < hub.channels.size) :
    (hub.deliver cause channel text).1.Accounted := by
  have size := hub.size_channels_deliver channel cause text
  refine accounted.of_event (accounted.toBounded.deliver cause text)
    (hub.history_deliver channel cause text) ?_ ?_ ?_
  · intro other
    simp [size]
  · intro other _ live
    by_cases same : other = channel
    · subst same
      simp [live present]
    · simp [same, Ne.symm same]
  · intro delivery found fails
    cases found
    exact ⟨present, fails⟩

theorem drain (accounted : hub.Accounted) : (hub.drain channel).1.Accounted := by
  have size : (hub.drain channel).1.channels.size = hub.channels.size := by
    simp [Hub.drain, record]
  refine accounted.of_event accounted.toBounded.drain (hub.history_drain channel) ?_ ?_ ?_
  · intro other
    simp [size]
  · intro other _ _
    by_cases same : other = channel
    · simp [same]
    · simp [same, Ne.symm same]
  · simp

theorem withdraw (accounted : hub.Accounted) (cause : Cause) (id : ClientId)
    (channel : ChannelId) : (hub.withdraw cause id channel).1.Accounted :=
  accounted.of_quiet (accounted.toBounded.withdraw cause id channel) rfl
    (hub.history_withdraw channel cause id) rfl

theorem begin (accounted : hub.Accounted) (message : Message) : (hub.begin message).Accounted :=
  accounted.of_quiet (accounted.toBounded.begin message) rfl (hub.history_begin message) rfl

theorem finish (accounted : hub.Accounted) (number : Nat) (report : Report) :
    (hub.finish number report).Accounted :=
  accounted.of_quiet (accounted.toBounded.finish number report) rfl
    (hub.history_finish number report) rfl

theorem isKept : IsKept Accounted where
  openChannel owner accounted := accounted.openChannel owner
  dropHandle holder accounted := accounted.of_same (accounted.toBounded.dropHandle holder) rfl rfl
  addHandle holder _ _ found accounted :=
    accounted.of_same (accounted.toBounded.addHandle holder found) rfl rfl
  dropReceiver live accounted := accounted.dropReceiver live
  deliver text found accounted :=
    accounted.deliver .direct text (accounted.lt_size_of_channelOf? found)
  drain _ accounted := accounted.drain
  issue accounted := accounted.of_quiet (Bounded.isKept.issue accounted.toBounded) rfl
    (history_issue _) rfl
  register id _ _ found accounted := accounted.of_quiet (accounted.toBounded.register id found)
    rfl (history_register _ _ id) rfl
  unregister id accounted := accounted.of_quiet (accounted.toBounded.unregister id) rfl
    (history_unregister _ id) rfl
  withdraw id _ channel _ accounted := accounted.withdraw .direct id channel
  keep name accounted := accounted.of_same (accounted.toBounded.keep name) rfl rfl
  release name accounted := accounted.of_same (accounted.toBounded.release name) rfl rfl

end Accounted

end PipeCast.Hub
