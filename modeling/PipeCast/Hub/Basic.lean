import PipeCast.Hub.Registry

/-!
# The hub

The hub holds the registry, the channels and everything that keeps a channel's
handles alive. A channel is an unbounded queue with one receiver and any number
of handles. Handles live in four places: with a holder, in the registry, in a
roster that somebody keeps, and in the roster of a broadcast under way. A channel
with none of them is closed.

Each operation enters what it did into the journal. The journal decides nothing:
no operation reads it. It is the history over which the laws of the hub are
stated.
-/

set_option autoImplicit false

namespace PipeCast

namespace Hub

/-- Who may hold a handle of a channel outside the hub. -/
inductive Holder where
  | named (name : String)
  | connection (client : ClientId)
  deriving DecidableEq, Repr

structure Channel where
  owner : Holder
  /-- The texts that wait, oldest first. -/
  queue : Array String
  /-- Whether the receiver still exists. It never comes back. -/
  isLive : Bool
  deriving DecidableEq, Repr

/-- On whose account something happened. -/
inductive Cause where
  | direct
  /-- On account of a broadcast, at its turn for a number. -/
  | broadcast (number : Nat) (id : ClientId)
  deriving DecidableEq, Repr

/-- What a broadcast came to. -/
structure Report where
  source : Message.Source
  recipients : Nat
  /-- How many entries this broadcast removed. -/
  dropped : Nat
  /-- The numbers whose delivery failed, in order. -/
  gone : List ClientId
  deriving DecidableEq, Repr

/-- An entry of the journal. -/
inductive Event where
  | opened (channel : ChannelId)
  | issued (id : ClientId)
  | registered (id : ClientId) (channel : ChannelId) (previous : Option ChannelId)
  | unregistered (id : ClientId) (previous : Option ChannelId)
  /-- A removal by number and channel, which may have found something else. -/
  | withdrawn (cause : Cause) (id : ClientId) (channel : ChannelId) (removed : Bool)
  | delivered (cause : Cause) (channel : ChannelId) (text : String) (succeeded : Bool)
  | drained (channel : ChannelId) (texts : List String) (closed : Bool)
  | receiverDropped (channel : ChannelId)
  | began (number : Nat) (message : Message) (roster : Roster)
  | ended (number : Nat) (report : Report)
  deriving DecidableEq, Repr

end Hub

/-- The state shared by everything that sends to clients. -/
structure Hub where
  registry : Hub.Registry
  channels : Array Hub.Channel
  /-- The handles held outside. A holder has at most one. -/
  handles : List (Hub.Holder × Hub.ChannelId)
  /-- The rosters that somebody keeps, by name. -/
  kept : List (String × Hub.Roster)
  /-- The rosters of the broadcasts under way, innermost first. -/
  underway : List Hub.Roster
  /-- How many broadcasts have begun; the next one gets this number. -/
  begun : Nat
  /-- What has been done, newest first. -/
  journal : List Hub.Event
  deriving Repr

namespace Hub

def fresh : Hub := ⟨.empty, #[], [], [], [], 0, []⟩

def record (hub : Hub) (event : Event) : Hub :=
  { hub with journal := event :: hub.journal }

/-! ## Channels and handles -/

def channelOf? (hub : Hub) (holder : Holder) : Option ChannelId :=
  hub.handles.lookup holder

/-- The channel that a holder opened, while its receiver exists. -/
def receiverOf? (hub : Hub) (holder : Holder) : Option ChannelId :=
  hub.channels.toList.findIdx? fun channel => channel.owner = holder && channel.isLive

def isLive (hub : Hub) (channel : ChannelId) : Bool :=
  (hub.channels[channel]?.map Channel.isLive).getD false

def queueOf (hub : Hub) (channel : ChannelId) : List String :=
  (hub.channels[channel]?.map (·.queue.toList)).getD []

/-- Whether a handle of a channel is left anywhere. -/
def isHeld (hub : Hub) (channel : ChannelId) : Bool :=
  hub.handles.any (·.2 = channel) || hub.registry.roster.holds channel ||
    hub.kept.any (·.2.holds channel) || hub.underway.any (·.holds channel)

/-- Opens a channel. Its owner gets the first handle and the receiver. -/
def openChannel (hub : Hub) (owner : Holder) : Hub × ChannelId :=
  let channel := hub.channels.size
  ({ hub with
      channels := hub.channels.push ⟨owner, #[], true⟩
      handles := (owner, channel) :: hub.handles }.record (.opened channel), channel)

/-- Takes a holder's handle away. The registry's own copy stays. -/
def dropHandle (hub : Hub) (holder : Holder) : Hub :=
  { hub with handles := hub.handles.filter fun handle => handle.1 ≠ holder }

def addHandle (hub : Hub) (holder : Holder) (channel : ChannelId) : Hub :=
  let hub := hub.dropHandle holder
  { hub with handles := (holder, channel) :: hub.handles }

/-- Drops a channel's receiver and with it everything that waits. Deliveries fail
from now on. -/
def dropReceiver (hub : Hub) (channel : ChannelId) : Hub :=
  { hub with
      channels := hub.channels.modify channel fun found =>
        { found with queue := #[], isLive := false } }.record (.receiverDropped channel)

/-- Takes everything away from a holder: its handle, and the receiver that it owns. -/
def vacate (hub : Hub) (holder : Holder) : Hub :=
  match hub.receiverOf? holder with
  | some channel => (hub.dropHandle holder).dropReceiver channel
  | none => hub.dropHandle holder

/-- Puts a text into a channel's queue, or says that the receiver is gone. -/
def deliver (hub : Hub) (cause : Cause) (channel : ChannelId) (text : String) : Hub × Bool :=
  if hub.isLive channel then
    ({ hub with
        channels := hub.channels.modify channel fun found =>
          { found with queue := found.queue.push text } }.record
      (.delivered cause channel text true), true)
  else (hub.record (.delivered cause channel text false), false)

/-- Takes everything that waits in a channel, and tells whether it is closed. -/
def drain (hub : Hub) (channel : ChannelId) : Hub × List String × Bool :=
  let texts := hub.queueOf channel
  let closed := !hub.isHeld channel
  ({ hub with
      channels := hub.channels.modify channel fun found => { found with queue := #[] } }.record
    (.drained channel texts closed), texts, closed)

/-! ## Registration -/

def issue (hub : Hub) : Hub × ClientId :=
  let (registry, id) := hub.registry.issue
  ({ hub with registry := registry }.record (.issued id), id)

def register (hub : Hub) (id : ClientId) (channel : ChannelId) : Hub :=
  { hub with registry := hub.registry.register id channel }.record
    (.registered id channel (hub.registry.roster.find? id))

def unregister (hub : Hub) (id : ClientId) : Hub :=
  { hub with registry := hub.registry.unregister id }.record
    (.unregistered id (hub.registry.roster.find? id))

/-- Removes the entry under a number only if it leads to the given channel. -/
def withdraw (hub : Hub) (cause : Cause) (id : ClientId) (channel : ChannelId) : Hub × Bool :=
  let (registry, removed) := hub.registry.withdraw id channel
  ({ hub with registry := registry }.record (.withdrawn cause id channel removed), removed)

/-! ## Rosters that outlive the moment -/

def keep (hub : Hub) (name : String) : Hub :=
  { hub with kept := (name, hub.registry.roster) :: hub.kept.filter fun entry => entry.1 ≠ name }

def release (hub : Hub) (name : String) : Hub :=
  { hub with kept := hub.kept.filter fun entry => entry.1 ≠ name }

def kept? (hub : Hub) (name : String) : Option Roster :=
  hub.kept.lookup name

def begin (hub : Hub) (message : Message) : Hub :=
  { hub with
      underway := hub.registry.roster :: hub.underway
      begun := hub.begun + 1 }.record (.began hub.begun message hub.registry.roster)

def finish (hub : Hub) (number : Nat) (report : Report) : Hub :=
  { hub with underway := hub.underway.tail }.record (.ended number report)

end Hub

end PipeCast
