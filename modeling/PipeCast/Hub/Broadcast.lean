import PipeCast.Hub.Basic

/-!
# Broadcasts

A broadcast visits the roster as it was when the broadcast began, in ascending
order of the numbers, and delivers its text once for each entry. Where a delivery
fails, the entry is removed, provided that its number still leads to the same
channel.

Anything may happen between a failed delivery and that removal, other broadcasts
included. What does is a parameter of the broadcast, the interlude, so that no law
depends on what it is.
-/

set_option autoImplicit false

namespace PipeCast.Hub

/-- What happens elsewhere after a failed delivery and before the removal that
follows it. It is told how many deliveries failed before, and may keep notes. -/
abbrev Interlude (Notes : Type) := Nat → Hub → Notes → Hub × Notes

def Interlude.none : Interlude Unit := fun _ hub notes => (hub, notes)

/-- How far a broadcast has come. -/
structure Progress (Notes : Type) where
  hub : Hub
  /-- The numbers whose delivery failed, latest first. -/
  gone : List ClientId
  dropped : Nat
  notes : Notes

def Progress.visit {Notes : Type} (interlude : Interlude Notes) (number : Nat) (text : String)
    (progress : Progress Notes) (entry : ClientId × ChannelId) : Progress Notes :=
  let cause := Cause.broadcast number entry.1
  match progress.hub.deliver cause entry.2 text with
  | (hub, true) => { progress with hub := hub }
  | (hub, false) =>
      let (hub, notes) := interlude progress.gone.length hub progress.notes
      let (hub, removed) := hub.withdraw cause entry.1 entry.2
      { hub := hub
        gone := entry.1 :: progress.gone
        dropped := progress.dropped + removed.toNat
        notes := notes }

/-- Sends a message to everyone registered now, with an interlude after each
failure. -/
def broadcastWith {Notes : Type} (interlude : Interlude Notes) (hub : Hub) (message : Message)
    (notes : Notes) : Hub × Report × Notes :=
  let roster := hub.registry.roster
  let number := hub.begun
  let progress := roster.foldl (Progress.visit interlude number message.text)
    ⟨hub.begin message, [], 0, notes⟩
  let report : Report :=
    ⟨message.source, roster.length, progress.dropped, progress.gone.reverse⟩
  (progress.hub.finish number report, report, progress.notes)

/-- Sends a message to everyone registered now. -/
def broadcast (hub : Hub) (message : Message) : Hub × Report :=
  let (hub, report, _) := hub.broadcastWith .none message ()
  (hub, report)

end PipeCast.Hub
