import PipeCast.Hub.Broadcast

/-!
# What the operations of a hub change

For each operation, what it does to the channels and to the journal. Four
operations touch a channel: opening, dropping the receiver, delivering and
draining. All others leave every queue and every receiver alone.
-/

set_option autoImplicit false

namespace PipeCast.Hub

variable (hub : Hub) (channel other : ChannelId)

/-! ## Receivers and queues -/

theorem isLive_congr {left right : Hub} (same : left.channels = right.channels) :
    left.isLive = right.isLive := by
  funext channel
  simp only [isLive, same]

theorem queueOf_congr {left right : Hub} (same : left.channels = right.channels) :
    left.queueOf = right.queueOf := by
  funext channel
  simp only [queueOf, same]

theorem lt_size_of_isLive {hub : Hub} {channel : ChannelId}
    (live : hub.isLive channel = true) : channel < hub.channels.size := by
  apply Nat.lt_of_not_le
  intro absent
  simp [isLive, Array.getElem?_eq_none absent] at live

theorem queueOf_of_size_le {hub : Hub} {channel : ChannelId}
    (absent : hub.channels.size ≤ channel) : hub.queueOf channel = [] := by
  simp [queueOf, Array.getElem?_eq_none absent]

theorem isLive_of_receiverOf? {hub : Hub} {holder : Holder} {channel : ChannelId}
    (found : hub.receiverOf? holder = some channel) : hub.isLive channel = true := by
  obtain ⟨below, fits, _⟩ := List.findIdx?_eq_some_iff_getElem.mp found
  simp only [Bool.and_eq_true] at fits
  have present : channel < hub.channels.size := by simpa using below
  have live : hub.channels[channel].isLive = true := by simpa using fits.2
  simp [isLive, Array.getElem?_eq_getElem present, live]

@[simp] theorem isLive_openChannel (owner : Holder) :
    (hub.openChannel owner).1.isLive other =
      (hub.isLive other || decide (other = hub.channels.size)) := by
  simp only [openChannel, record, isLive, Array.getElem?_push]
  by_cases same : other = hub.channels.size
  · simp [same]
  · simp [same]

@[simp] theorem queueOf_openChannel (owner : Holder) :
    (hub.openChannel owner).1.queueOf other = hub.queueOf other := by
  simp only [openChannel, record, queueOf, Array.getElem?_push]
  by_cases same : other = hub.channels.size
  · simp [same]
  · simp [same]

@[simp] theorem isLive_dropReceiver :
    (hub.dropReceiver channel).isLive other =
      (hub.isLive other && !decide (other = channel)) := by
  simp only [dropReceiver, record, isLive, Array.getElem?_modify]
  by_cases same : channel = other
  · subst same
    cases hub.channels[channel]? <;> simp
  · simp [same, Ne.symm same]

@[simp] theorem queueOf_dropReceiver :
    (hub.dropReceiver channel).queueOf other =
      if other = channel then [] else hub.queueOf other := by
  simp only [dropReceiver, record, queueOf, Array.getElem?_modify]
  by_cases same : channel = other
  · subst same
    cases hub.channels[channel]? <;> simp
  · simp [same, Ne.symm same]

@[simp] theorem size_channels_dropReceiver :
    (hub.dropReceiver channel).channels.size = hub.channels.size := by
  simp [dropReceiver, record]

theorem registry_vacate (holder : Holder) : (hub.vacate holder).registry = hub.registry := by
  unfold vacate
  split <;> rfl

theorem size_channels_vacate (holder : Holder) :
    (hub.vacate holder).channels.size = hub.channels.size := by
  unfold vacate
  split
  · exact size_channels_dropReceiver _ _
  · rfl

theorem deliver_of_live {hub : Hub} {channel : ChannelId} (cause : Cause) (text : String)
    (live : hub.isLive channel = true) :
    hub.deliver cause channel text =
      ({ hub with
          channels := hub.channels.modify channel fun found =>
            { found with queue := found.queue.push text } }.record
        (.delivered cause channel text true), true) := by
  simp only [deliver, live, if_true]

theorem deliver_of_dead {hub : Hub} {channel : ChannelId} (cause : Cause) (text : String)
    (dead : hub.isLive channel = false) :
    hub.deliver cause channel text =
      (hub.record (.delivered cause channel text false), false) := by
  simp [deliver, dead]

@[simp] theorem deliver_snd (cause : Cause) (text : String) :
    (hub.deliver cause channel text).2 = hub.isLive channel := by
  cases reached : hub.isLive channel with
  | true => rw [deliver_of_live cause text reached]
  | false => rw [deliver_of_dead cause text reached]

@[simp] theorem isLive_deliver (cause : Cause) (text : String) :
    (hub.deliver cause channel text).1.isLive other = hub.isLive other := by
  cases reached : hub.isLive channel with
  | false =>
      rw [deliver_of_dead cause text reached]
      rfl
  | true =>
      rw [deliver_of_live cause text reached]
      simp only [record, isLive, Array.getElem?_modify]
      by_cases same : channel = other
      · subst same
        cases hub.channels[channel]? <;> simp
      · simp [same]

/-- A delivery puts its text at the end of its own queue, if the receiver exists,
and into no other queue. -/
@[simp] theorem queueOf_deliver (cause : Cause) (text : String) :
    (hub.deliver cause channel text).1.queueOf other =
      hub.queueOf other ++ if other = channel ∧ hub.isLive channel = true then [text] else [] := by
  cases reached : hub.isLive channel with
  | false =>
      rw [deliver_of_dead cause text reached]
      simp [record, queueOf]
  | true =>
      rw [deliver_of_live cause text reached]
      simp only [record, queueOf, Array.getElem?_modify]
      by_cases same : channel = other
      · subst same
        have below := lt_size_of_isLive reached
        simp [Array.getElem?_eq_getElem below]
      · simp [same, Ne.symm same]

theorem registry_deliver (cause : Cause) (text : String) :
    (hub.deliver cause channel text).1.registry = hub.registry := by
  unfold deliver
  split <;> rfl

theorem begun_deliver (cause : Cause) (text : String) :
    (hub.deliver cause channel text).1.begun = hub.begun := by
  unfold deliver
  split <;> rfl

theorem underway_deliver (cause : Cause) (text : String) :
    (hub.deliver cause channel text).1.underway = hub.underway := by
  unfold deliver
  split <;> rfl

theorem size_channels_deliver (cause : Cause) (text : String) :
    (hub.deliver cause channel text).1.channels.size = hub.channels.size := by
  unfold deliver
  split <;> simp [record]

theorem isHeld_deliver (cause : Cause) (text : String) :
    (hub.deliver cause channel text).1.isHeld other = hub.isHeld other := by
  unfold deliver
  split <;> rfl

@[simp] theorem drain_snd :
    (hub.drain channel).2 = (hub.queueOf channel, !hub.isHeld channel) := rfl

@[simp] theorem isLive_drain :
    (hub.drain channel).1.isLive other = hub.isLive other := by
  simp only [drain, record, isLive, Array.getElem?_modify]
  by_cases same : channel = other
  · subst same
    cases hub.channels[channel]? <;> simp
  · simp [same]

@[simp] theorem queueOf_drain :
    (hub.drain channel).1.queueOf other = if other = channel then [] else hub.queueOf other := by
  simp only [drain, record, queueOf, Array.getElem?_modify]
  by_cases same : channel = other
  · subst same
    cases hub.channels[channel]? <;> simp
  · simp [same, Ne.symm same]

@[simp] theorem size_channels_drain :
    (hub.drain channel).1.channels.size = hub.channels.size := by
  simp [drain, record]

/-! ## History -/

/-- What has been done, oldest first. -/
def history (hub : Hub) : List Event := hub.journal.reverse

@[simp] theorem history_fresh : fresh.history = [] := rfl

@[simp] theorem history_openChannel (owner : Holder) :
    (hub.openChannel owner).1.history = hub.history ++ [.opened hub.channels.size] := by
  simp [openChannel, record, history]

@[simp] theorem history_dropReceiver :
    (hub.dropReceiver channel).history = hub.history ++ [.receiverDropped channel] := by
  simp [dropReceiver, record, history]

@[simp] theorem history_deliver (cause : Cause) (text : String) :
    (hub.deliver cause channel text).1.history =
      hub.history ++ [.delivered cause channel text (hub.isLive channel)] := by
  cases reached : hub.isLive channel with
  | true => simp [deliver_of_live cause text reached, record, history]
  | false => simp [deliver_of_dead cause text reached, record, history]

@[simp] theorem history_drain :
    (hub.drain channel).1.history =
      hub.history ++ [.drained channel (hub.queueOf channel) (!hub.isHeld channel)] := by
  simp [drain, record, history]

@[simp] theorem history_issue :
    hub.issue.1.history = hub.history ++ [.issued hub.registry.next] := by
  simp [issue, Registry.issue, record, history]

@[simp] theorem history_register (id : ClientId) :
    (hub.register id channel).history =
      hub.history ++ [.registered id channel (hub.registry.roster.find? id)] := by
  simp [register, record, history]

@[simp] theorem history_unregister (id : ClientId) :
    (hub.unregister id).history =
      hub.history ++ [.unregistered id (hub.registry.roster.find? id)] := by
  simp [unregister, record, history]

@[simp] theorem history_withdraw (cause : Cause) (id : ClientId) :
    (hub.withdraw cause id channel).1.history =
      hub.history ++ [.withdrawn cause id channel (hub.registry.withdraw id channel).2] := by
  simp [withdraw, record, history]

@[simp] theorem history_begin (message : Message) :
    (hub.begin message).history =
      hub.history ++ [.began hub.begun message hub.registry.roster] := by
  simp [begin, record, history]

@[simp] theorem history_finish (number : Nat) (report : Report) :
    (hub.finish number report).history = hub.history ++ [.ended number report] := by
  simp [finish, record, history]

end PipeCast.Hub
