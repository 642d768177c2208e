import PipeCast.Reader.Session

/-!
# Runs of the hub

The operations that users of a hub may ask for, by the names of their handles, and
the run of any list of them. A broadcast may carry steps of its own, which run
after one of its failed deliveries and before the removal that follows; those
steps may be broadcasts of the same kind.

A step that names a handle, a receiver or a kept roster that does not exist does
nothing. A name that is used again gets a new meaning: whoever opens a channel
gives up the handle and the receiver that it had, and a copied handle replaces the
one of its name.
-/

set_option autoImplicit false

namespace PipeCast.Hub

/-- An operation on a hub. -/
inductive Step where
  | openChannel (name : String)
  /-- Opens a channel and registers it under a fresh number. -/
  | join (name : String)
  | clone (name : String) (copy : String)
  | dropHandle (name : String)
  | dropReceiver (name : String)
  | issue
  | register (id : ClientId) (name : String)
  | unregister (id : ClientId)
  | withdraw (id : ClientId) (name : String)
  | roster
  | keep (label : String)
  | showKept (label : String)
  | release (label : String)
  | isEmpty
  | sameClient (first second : String)
  | deliver (name : String) (text : String)
  | drain (name : String)
  /-- Sends a message. Each script runs after the failure of its number, counted
  from zero, if there is one. -/
  | broadcast (message : Message) (scripts : List (Nat × List Step))
  | readPipe (opening : Reader.Opening)

/-- The answer to a step. Answers to the steps of a script come with the number of
clients registered after each; a script that did not run has none. -/
inductive Reply where
  | done
  | id (id : ClientId)
  | truth (value : Bool)
  | count (value : Nat)
  /-- Registered numbers, each with the sorted names of its channel's handles. -/
  | roster (entries : List (ClientId × List String))
  | delivered (succeeded : Bool)
  | drained (texts : List String) (closed : Bool)
  | broadcast (report : Report) (scripts : List (Option (List (Reply × Nat))))
  | readPipe (outcome : Reader.Outcome)
  /-- The step names something that does not exist. -/
  | refused

/-- The names of the handles of a channel, sorted. -/
def namesOf (hub : Hub) (channel : ChannelId) : List String :=
  (hub.handles.filterMap fun handle =>
    match handle with
    | (.named name, found) => if found = channel then some name else none
    | (.connection _, _) => none).mergeSort fun first second => !(second < first)

def describe (hub : Hub) (roster : Roster) : List (ClientId × List String) :=
  roster.map fun entry => (entry.1, hub.namesOf entry.2)

def onHandle (hub : Hub) (name : String) (act : ChannelId → Hub × Reply) : Hub × Reply :=
  match hub.channelOf? (.named name) with
  | some channel => act channel
  | none => (hub, .refused)

def onReceiver (hub : Hub) (name : String) (act : ChannelId → Hub × Reply) : Hub × Reply :=
  match hub.receiverOf? (.named name) with
  | some channel => act channel
  | none => (hub, .refused)

abbrev Script := Hub → Hub × List (Reply × Nat)

/-- Runs the scripts of one failure in order, and notes what they answered. -/
def playScripts (scripts : List (Nat × Script)) : Interlude (List (Option (List (Reply × Nat)))) :=
  fun failure hub notes =>
    (scripts.zip notes).foldr (fun ((number, script), note) continue_ hub =>
      if number = failure then
        let (hub, answers) := script hub
        let (hub, notes) := continue_ hub
        (hub, some answers :: notes)
      else
        let (hub, notes) := continue_ hub
        (hub, note :: notes)) (fun hub => (hub, [])) hub

mutual

def Step.run : Step → Hub → Hub × Reply
  | .openChannel name, hub =>
      (((hub.vacate (.named name)).openChannel (.named name)).1, .done)
  | .join name, hub =>
      let (hub, channel) := (hub.vacate (.named name)).openChannel (.named name)
      let (hub, id) := hub.issue
      (hub.register id channel, .id id)
  | .clone name copy, hub =>
      hub.onHandle name fun channel => (hub.addHandle (.named copy) channel, .done)
  | .dropHandle name, hub =>
      hub.onHandle name fun _ => (hub.dropHandle (.named name), .done)
  | .dropReceiver name, hub =>
      hub.onReceiver name fun channel => (hub.dropReceiver channel, .done)
  | .issue, hub =>
      let (hub, id) := hub.issue
      (hub, .id id)
  | .register id name, hub =>
      hub.onHandle name fun channel => (hub.register id channel, .done)
  | .unregister id, hub => (hub.unregister id, .done)
  | .withdraw id name, hub =>
      hub.onHandle name fun channel =>
        let (hub, removed) := hub.withdraw .direct id channel
        (hub, .truth removed)
  | .roster, hub => (hub, .roster (hub.describe hub.registry.roster))
  | .keep label, hub => (hub.keep label, .count hub.registry.size)
  | .showKept label, hub =>
      match hub.kept? label with
      | some kept => (hub, .roster (hub.describe kept))
      | none => (hub, .refused)
  | .release label, hub =>
      match hub.kept? label with
      | some _ => (hub.release label, .done)
      | none => (hub, .refused)
  | .isEmpty, hub => (hub, .truth hub.registry.isEmpty)
  | .sameClient first second, hub =>
      hub.onHandle first fun left =>
        hub.onHandle second fun right => (hub, .truth (left = right))
  | .deliver name text, hub =>
      hub.onHandle name fun channel =>
        let (hub, succeeded) := hub.deliver .direct channel text
        (hub, .delivered succeeded)
  | .drain name, hub =>
      hub.onReceiver name fun channel =>
        let (hub, texts, closed) := hub.drain channel
        (hub, .drained texts closed)
  | .broadcast message scripts, hub =>
      let ready := Step.prepare scripts
      let (hub, report, answers) :=
        hub.broadcastWith (playScripts ready) message (ready.map fun _ => none)
      (hub, .broadcast report answers)
  | .readPipe opening, hub =>
      let (hub, outcome) := Reader.round hub opening
      (hub, .readPipe outcome)

/-- Runs steps in order. Each answer comes with the number of clients registered
after the step. -/
def Step.runAll : List Step → Script
  | [], hub => (hub, [])
  | step :: rest, hub =>
      let (hub, reply) := step.run hub
      let (final, answers) := Step.runAll rest hub
      (final, (reply, hub.registry.size) :: answers)

def Step.prepare : List (Nat × List Step) → List (Nat × Script)
  | [] => []
  | (failure, steps) :: rest => (failure, Step.runAll steps) :: Step.prepare rest

end

end PipeCast.Hub
