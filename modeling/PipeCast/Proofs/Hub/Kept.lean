import PipeCast.Hub.Step
import PipeCast.Proofs.Hub.Operations
import PipeCast.Proofs.Hub.Registry

/-!
# What plain steps keep

A plain step is one within which nothing else happens: every step but a broadcast
and a round of the reader. A property that all operations keep is kept by every
plain step, so that laws of the hub are proved for operations only.

An operation may assume of a channel what its callers know: a handle leads to a
channel that is registered or delivered to, and one that is drained or dropped has
its receiver.

Handles are copied and taken away, and none comes from nowhere. So what holds of the
channels of all handles goes on to hold if it holds of the channels that are opened.
-/

set_option autoImplicit false

namespace PipeCast.Hub

/-- Whether nothing else can happen while a step is carried out. -/
def Step.isPlain : Step → Bool
  | .broadcast _ _ | .readPipe _ => false
  | _ => true

/-- Every channel of which a handle is left anywhere exists. -/
structure Bounded (hub : Hub) : Prop where
  handles : ∀ handle ∈ hub.handles, handle.2 < hub.channels.size
  registered : ∀ entry ∈ hub.registry.roster, entry.2 < hub.channels.size
  kept : ∀ named ∈ hub.kept, ∀ entry ∈ named.2, entry.2 < hub.channels.size
  underway : ∀ roster ∈ hub.underway, ∀ entry ∈ roster, entry.2 < hub.channels.size

/-- A property that every operation keeps of which plain steps are made. -/
structure IsKept (P : Hub → Prop) : Prop where
  openChannel : ∀ {hub : Hub} (owner : Holder), P hub → P (hub.openChannel owner).1
  dropHandle : ∀ {hub : Hub} (holder : Holder), P hub → P (hub.dropHandle holder)
  addHandle : ∀ {hub : Hub} (holder : Holder) {source : Holder} {channel : ChannelId},
    hub.channelOf? source = some channel → P hub → P (hub.addHandle holder channel)
  dropReceiver : ∀ {hub : Hub} {channel : ChannelId},
    hub.isLive channel = true → P hub → P (hub.dropReceiver channel)
  deliver : ∀ {hub : Hub} {holder : Holder} {channel : ChannelId} (text : String),
    hub.channelOf? holder = some channel → P hub → P (hub.deliver .direct channel text).1
  drain : ∀ {hub : Hub} {channel : ChannelId},
    hub.isLive channel = true → P hub → P (hub.drain channel).1
  issue : ∀ {hub : Hub}, P hub → P hub.issue.1
  register : ∀ {hub : Hub} (id : ClientId) {holder : Holder} {channel : ChannelId},
    hub.channelOf? holder = some channel → P hub → P (hub.register id channel)
  unregister : ∀ {hub : Hub} (id : ClientId), P hub → P (hub.unregister id)
  withdraw : ∀ {hub : Hub} (id : ClientId) {holder : Holder} {channel : ChannelId},
    hub.channelOf? holder = some channel → P hub → P (hub.withdraw .direct id channel).1
  keep : ∀ {hub : Hub} (name : String), P hub → P (hub.keep name)
  release : ∀ {hub : Hub} (name : String), P hub → P (hub.release name)

theorem mem_handles_of_channelOf? {hub : Hub} {holder : Holder} {channel : ChannelId}
    (found : hub.channelOf? holder = some channel) : (holder, channel) ∈ hub.handles := by
  obtain ⟨before, after, split, _⟩ := List.lookup_eq_some_iff.mp found
  rw [split]
  exact List.mem_append_right _ List.mem_cons_self

theorem Bounded.lt_size_of_channelOf? {hub : Hub} (bounded : hub.Bounded) {holder : Holder}
    {channel : ChannelId} (found : hub.channelOf? holder = some channel) :
    channel < hub.channels.size :=
  bounded.handles _ (mem_handles_of_channelOf? found)

theorem onHandle_keeps {P : Hub → Prop} {hub : Hub} {name : String}
    {act : ChannelId → Hub × Reply} (holds : P hub)
    (keeps : ∀ channel, hub.channelOf? (.named name) = some channel → P (act channel).1) :
    P (hub.onHandle name act).1 := by
  unfold onHandle
  cases found : hub.channelOf? (.named name) with
  | none => exact holds
  | some channel => exact keeps channel found

theorem onReceiver_keeps {P : Hub → Prop} {hub : Hub} {name : String}
    {act : ChannelId → Hub × Reply} (holds : P hub)
    (keeps : ∀ channel, hub.receiverOf? (.named name) = some channel → P (act channel).1) :
    P (hub.onReceiver name act).1 := by
  unfold onReceiver
  cases found : hub.receiverOf? (.named name) with
  | none => exact holds
  | some channel => exact keeps channel found

namespace IsKept

variable {P : Hub → Prop}

theorem vacate (isKept : IsKept P) {hub : Hub} (holds : P hub) (holder : Holder) :
    P (hub.vacate holder) := by
  unfold Hub.vacate
  cases found : hub.receiverOf? holder with
  | none => exact isKept.dropHandle holder holds
  | some channel =>
      have live : (hub.dropHandle holder).isLive channel = true :=
        isLive_of_receiverOf? found
      exact isKept.dropReceiver live (isKept.dropHandle holder holds)

/-- What all operations keep, every plain step keeps. -/
theorem run (isKept : IsKept P) {hub : Hub} (holds : P hub) {step : Step}
    (plain : step.isPlain = true) : P (step.run hub).1 := by
  cases step with
  | openChannel name =>
      simp only [Step.run]
      exact isKept.openChannel _ (isKept.vacate holds _)
  | join name =>
      have opened (before : Hub) :
          (before.openChannel (.named name)).1.issue.1.channelOf? (.named name) =
            some (before.openChannel (.named name)).2 := by
        simp [Hub.openChannel, Hub.issue, record, channelOf?]
      simp only [Step.run]
      exact isKept.register _ (opened _)
        (isKept.issue (isKept.openChannel _ (isKept.vacate holds _)))
  | clone name copy =>
      simp only [Step.run]
      exact onHandle_keeps holds fun channel found =>
        isKept.addHandle _ found holds
  | dropHandle name =>
      simp only [Step.run]
      exact onHandle_keeps holds fun _ _ => isKept.dropHandle _ holds
  | dropReceiver name =>
      simp only [Step.run]
      exact onReceiver_keeps holds fun _ found =>
        isKept.dropReceiver (isLive_of_receiverOf? found) holds
  | issue =>
      simp only [Step.run]
      exact isKept.issue holds
  | register id name =>
      simp only [Step.run]
      exact onHandle_keeps holds fun _ found =>
        isKept.register id found holds
  | unregister id =>
      simp only [Step.run]
      exact isKept.unregister id holds
  | withdraw id name =>
      simp only [Step.run]
      exact onHandle_keeps holds fun _ found =>
        isKept.withdraw id found holds
  | roster | isEmpty => simpa only [Step.run] using holds
  | keep label =>
      simp only [Step.run]
      exact isKept.keep label holds
  | showKept label =>
      simp only [Step.run]
      split <;> exact holds
  | release label =>
      simp only [Step.run]
      split
      · exact isKept.release label holds
      · exact holds
  | sameClient first second =>
      simp only [Step.run]
      exact onHandle_keeps holds fun _ _ => onHandle_keeps holds fun _ _ => holds
  | deliver name text =>
      simp only [Step.run]
      exact onHandle_keeps holds fun _ found =>
        isKept.deliver text found holds
  | drain name =>
      simp only [Step.run]
      exact onReceiver_keeps holds fun _ found =>
        isKept.drain (isLive_of_receiverOf? found) holds
  | broadcast message scripts => simp [Step.isPlain] at plain
  | readPipe opening => simp [Step.isPlain] at plain

end IsKept

/-! ## The channels of handles -/

/-- Every channel of which a handle is left anywhere has a property. -/
structure AllHeld (holds : ChannelId → Prop) (hub : Hub) : Prop where
  handles : ∀ handle ∈ hub.handles, holds handle.2
  registered : ∀ entry ∈ hub.registry.roster, holds entry.2
  kept : ∀ named ∈ hub.kept, ∀ entry ∈ named.2, holds entry.2
  underway : ∀ roster ∈ hub.underway, ∀ entry ∈ roster, holds entry.2

namespace AllHeld

variable {holds : ChannelId → Prop} {hub changed : Hub} {channel : ChannelId}

theorem imp {weaker : ChannelId → Prop} (all : AllHeld holds hub)
    (implied : ∀ channel, holds channel → weaker channel) : AllHeld weaker hub where
  handles handle member := implied _ (all.handles handle member)
  registered entry member := implied _ (all.registered entry member)
  kept named label entry member := implied _ (all.kept named label entry member)
  underway roster begun entry member := implied _ (all.underway roster begun entry member)

/-- What becomes of queues and receivers matters to no handle. -/
theorem of_same (all : AllHeld holds hub) (handles : changed.handles = hub.handles)
    (roster : changed.registry.roster = hub.registry.roster) (kept : changed.kept = hub.kept)
    (underway : changed.underway = hub.underway) : AllHeld holds changed := by
  constructor
  · rw [handles]
    exact all.handles
  · rw [roster]
    exact all.registered
  · rw [kept]
    exact all.kept
  · rw [underway]
    exact all.underway

theorem holds_of_channelOf? (all : AllHeld holds hub) {holder : Holder}
    (found : hub.channelOf? holder = some channel) : holds channel :=
  all.handles _ (mem_handles_of_channelOf? found)

theorem openChannel (all : AllHeld holds hub) (owner : Holder)
    (new : holds hub.channels.size) : AllHeld holds (hub.openChannel owner).1 :=
  { all with handles := List.forall_mem_cons.mpr ⟨new, all.handles⟩ }

theorem dropHandle (all : AllHeld holds hub) (holder : Holder) :
    AllHeld holds (hub.dropHandle holder) :=
  { all with handles := fun handle member => all.handles handle (List.mem_filter.mp member).1 }

theorem addHandle (all : AllHeld holds hub) (holder : Holder) (held : holds channel) :
    AllHeld holds (hub.addHandle holder channel) :=
  { all with handles := List.forall_mem_cons.mpr ⟨held, (all.dropHandle holder).handles⟩ }

theorem deliver (all : AllHeld holds hub) (cause : Cause) (text : String) :
    AllHeld holds (hub.deliver cause channel text).1 := by
  unfold Hub.deliver
  split <;> exact all.of_same rfl rfl rfl rfl

theorem register (all : AllHeld holds hub) (id : ClientId) (held : holds channel) :
    AllHeld holds (hub.register id channel) := by
  refine { all with registered := ?_ }
  intro entry member
  rcases Roster.eq_or_mem_of_mem_insert member with same | old
  · rw [same]
    exact held
  · exact all.registered entry old

theorem unregister (all : AllHeld holds hub) (id : ClientId) :
    AllHeld holds (hub.unregister id) :=
  { all with
    registered := fun entry member => all.registered entry (List.mem_filter.mp member).1 }

theorem withdraw (all : AllHeld holds hub) (cause : Cause) (id : ClientId)
    (channel : ChannelId) : AllHeld holds (hub.withdraw cause id channel).1 :=
  { all with
    registered := fun entry member =>
      all.registered entry (Registry.mem_of_mem_withdraw member) }

theorem keep (all : AllHeld holds hub) (name : String) : AllHeld holds (hub.keep name) := by
  refine { all with kept := List.forall_mem_cons.mpr ⟨all.registered, ?_⟩ }
  exact fun named label => all.kept named (List.mem_filter.mp label).1

theorem release (all : AllHeld holds hub) (name : String) : AllHeld holds (hub.release name) :=
  { all with kept := fun named label => all.kept named (List.mem_filter.mp label).1 }

theorem begin (all : AllHeld holds hub) (message : Message) : AllHeld holds (hub.begin message) :=
  { all with underway := List.forall_mem_cons.mpr ⟨all.registered, all.underway⟩ }

theorem finish (all : AllHeld holds hub) (number : Nat) (report : Report) :
    AllHeld holds (hub.finish number report) :=
  { all with underway := fun roster begun => all.underway roster (List.mem_of_mem_tail begun) }

end AllHeld

/-! ## Existence of channels -/

theorem AllHeld.bounded {hub : Hub} (all : AllHeld (· < hub.channels.size) hub) : hub.Bounded :=
  ⟨all.handles, all.registered, all.kept, all.underway⟩

namespace Bounded

variable {hub : Hub} {channel : ChannelId}

theorem all (bounded : hub.Bounded) : AllHeld (· < hub.channels.size) hub :=
  ⟨bounded.handles, bounded.registered, bounded.kept, bounded.underway⟩

theorem fresh : Hub.fresh.Bounded :=
  ⟨nofun, nofun, nofun, nofun⟩

/-- A change of queues and receivers that opens and closes no channel matters to no
handle. -/
theorem of_size_eq {changed : Hub} (bounded : hub.Bounded)
    (size : changed.channels.size = hub.channels.size) (handles : changed.handles = hub.handles)
    (roster : changed.registry.roster = hub.registry.roster) (kept : changed.kept = hub.kept)
    (underway : changed.underway = hub.underway) : changed.Bounded := by
  have same := bounded.all.of_same handles roster kept underway
  rw [← size] at same
  exact same.bounded

theorem openChannel (bounded : hub.Bounded) (owner : Holder) :
    (hub.openChannel owner).1.Bounded := by
  have size : (hub.openChannel owner).1.channels.size = hub.channels.size + 1 := by
    simp [Hub.openChannel, record]
  have below := bounded.all.imp fun _ => Nat.lt_succ_of_lt
  have opened := below.openChannel owner (Nat.lt_succ_self _)
  rw [Nat.succ_eq_add_one, ← size] at opened
  exact opened.bounded

theorem dropHandle (bounded : hub.Bounded) (holder : Holder) :
    (hub.dropHandle holder).Bounded :=
  (bounded.all.dropHandle holder).bounded

theorem addHandle (bounded : hub.Bounded) (holder : Holder) {source : Holder}
    (found : hub.channelOf? source = some channel) : (hub.addHandle holder channel).Bounded :=
  (bounded.all.addHandle holder (bounded.lt_size_of_channelOf? found)).bounded

theorem dropReceiver (bounded : hub.Bounded) : (hub.dropReceiver channel).Bounded :=
  bounded.of_size_eq (by simp [Hub.dropReceiver, record]) rfl rfl rfl rfl

theorem deliver (bounded : hub.Bounded) (cause : Cause) (text : String) :
    (hub.deliver cause channel text).1.Bounded := by
  have all : AllHeld (· < hub.channels.size) (hub.deliver cause channel text).1 :=
    bounded.all.deliver cause text
  rw [← hub.size_channels_deliver channel cause text] at all
  exact all.bounded

theorem drain (bounded : hub.Bounded) : (hub.drain channel).1.Bounded :=
  bounded.of_size_eq (by simp [Hub.drain, record]) rfl rfl rfl rfl

theorem register (bounded : hub.Bounded) (id : ClientId) {holder : Holder}
    (found : hub.channelOf? holder = some channel) : (hub.register id channel).Bounded :=
  (bounded.all.register id (bounded.lt_size_of_channelOf? found)).bounded

theorem unregister (bounded : hub.Bounded) (id : ClientId) : (hub.unregister id).Bounded :=
  (bounded.all.unregister id).bounded

theorem withdraw (bounded : hub.Bounded) (cause : Cause) (id : ClientId) (channel : ChannelId) :
    (hub.withdraw cause id channel).1.Bounded :=
  (bounded.all.withdraw cause id channel).bounded

theorem keep (bounded : hub.Bounded) (name : String) : (hub.keep name).Bounded :=
  (bounded.all.keep name).bounded

theorem release (bounded : hub.Bounded) (name : String) : (hub.release name).Bounded :=
  (bounded.all.release name).bounded

theorem begin (bounded : hub.Bounded) (message : Message) : (hub.begin message).Bounded :=
  (bounded.all.begin message).bounded

theorem finish (bounded : hub.Bounded) (number : Nat) (report : Report) :
    (hub.finish number report).Bounded :=
  (bounded.all.finish number report).bounded

theorem isKept : IsKept Bounded where
  openChannel owner bounded := bounded.openChannel owner
  dropHandle holder bounded := bounded.dropHandle holder
  addHandle holder _ _ found bounded := bounded.addHandle holder found
  dropReceiver _ bounded := bounded.dropReceiver
  deliver text _ bounded := bounded.deliver .direct text
  drain _ bounded := bounded.drain
  issue bounded := bounded.of_size_eq rfl rfl rfl rfl rfl
  register id _ _ found bounded := bounded.register id found
  unregister id bounded := bounded.unregister id
  withdraw id _ channel _ bounded := bounded.withdraw .direct id channel
  keep name bounded := bounded.keep name
  release name bounded := bounded.release name

end Bounded

end PipeCast.Hub
