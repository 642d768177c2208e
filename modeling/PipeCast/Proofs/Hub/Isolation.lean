import Mathlib.Logic.Equiv.Basic
import PipeCast.Proofs.Hub.Alone

/-!
# One client and all others

What becomes of one client makes no difference to any other. Two hubs may differ as they
please in one channel: its receiver may exist in one of them only, many texts may wait in it,
it may stand under several numbers or under none, or it may never have been opened. Whatever
messages are sent, all others get the same from both.
-/

set_option autoImplicit false

namespace PipeCast.Hub

theorem Roster.countP_filter_ne (roster : Roster) {channel out : ChannelId}
    (different : channel ≠ out) :
    ((roster.filter fun entry => entry.2 ≠ out).countP fun entry => entry.2 = channel) =
      roster.countP fun entry => entry.2 = channel := by
  rw [List.countP_filter]
  refine List.countP_congr fun entry _ => ?_
  by_cases same : entry.2 = channel <;> simp [same, different]

/-- Two hubs agree on every channel but one. A channel is known by its place among those
opened so far, so where one was never opened the others are known by other places. The renaming
leads from the places of the first hub to those of the second. -/
structure AgreeBut (rename : ChannelId ≃ ChannelId) (out : ChannelId) (left right : Hub) :
    Prop where
  entries : (left.registry.roster.filter fun entry => entry.2 ≠ out).map
      (fun entry => (entry.1, rename entry.2)) =
    right.registry.roster.filter fun entry => entry.2 ≠ rename out
  isLive : ∀ other, other ≠ out → right.isLive (rename other) = left.isLive other
  queueOf : ∀ other, other ≠ out → right.queueOf (rename other) = left.queueOf other

namespace AgreeBut

variable {rename : ChannelId ≃ ChannelId} {out : ChannelId} {left right : Hub}

/-- Every other channel stands under as many numbers in the one hub as in the other. -/
theorem countP_eq (agree : AgreeBut rename out left right) {other : ChannelId}
    (different : other ≠ out) :
    (right.registry.roster.countP fun entry => entry.2 = rename other) =
      left.registry.roster.countP fun entry => entry.2 = other := by
  rw [← Roster.countP_filter_ne _ different,
    ← Roster.countP_filter_ne _ (rename.injective.ne different), ← agree.entries, List.countP_map]
  exact List.countP_congr fun entry _ => by simp

theorem broadcast (agree : AgreeBut rename out left right) (message : Message) :
    AgreeBut rename out (left.broadcast message).1 (right.broadcast message).1 where
  entries := by
    rw [filter_roster_broadcast, filter_roster_broadcast, ← agree.entries, List.filter_map]
    refine congrArg _ (List.filter_congr fun entry given => ?_)
    have different : entry.2 ≠ out := by simpa using (List.mem_filter.mp given).2
    exact (agree.isLive entry.2 different).symm
  isLive other different := by
    rw [isLive_broadcast, isLive_broadcast]
    exact agree.isLive other different
  queueOf other different := by
    rw [queueOf_broadcast, queueOf_broadcast, agree.queueOf other different,
      agree.isLive other different, agree.countP_eq different]

theorem broadcastAll (agree : AgreeBut rename out left right) (messages : List Message) :
    AgreeBut rename out (left.broadcastAll messages) (right.broadcastAll messages) := by
  induction messages generalizing left right with
  | nil => exact agree
  | cons message messages ih => exact ih (agree.broadcast message)

end AgreeBut

/-- Hubs that agree on every channel but one still do after any messages: every other channel
has the same entries and the same queue in both, and a receiver in both or in neither. If it has
one, it has got every text, once for each of its numbers. -/
theorem broadcastAll_spares_others {rename : ChannelId ≃ ChannelId} {out : ChannelId}
    {left right : Hub} (agree : AgreeBut rename out left right) (messages : List Message) :
    AgreeBut rename out (left.broadcastAll messages) (right.broadcastAll messages) ∧
      ∀ other, other ≠ out → left.isLive other = true →
        (left.broadcastAll messages).entriesOf other = left.entriesOf other ∧
        (left.broadcastAll messages).queueOf other = left.queueOf other ++
          messages.flatMap fun message =>
            List.replicate (left.entriesOf other).length message.text :=
  ⟨agree.broadcastAll messages, fun _ _ live =>
    ⟨entriesOf_broadcastAll left live messages, queueOf_broadcastAll left live messages⟩⟩

/-- The receiver of a client with two numbers is gone in the one hub; in the other the client
has never come, and the one that came after it has its place. -/
theorem missing_client_spares_others :
    let left := (((((((fresh.openChannel (.named "b")).1.openChannel (.named "a")).1.openChannel
      (.named "c")).1.register 1 0).register 2 1).register 3 2).register 9 1).dropReceiver 1
    let right := (((fresh.openChannel (.named "b")).1.openChannel (.named "c")).1.register
      1 0).register 3 1
    let messages := [.joined, .line "hello"]
    AgreeBut (Equiv.swap 1 2) 1 left right ∧
      AgreeBut (Equiv.swap 1 2) 1 (left.broadcastAll messages) (right.broadcastAll messages) ∧
      (left.broadcastAll messages).registry.roster = [(1, 0), (3, 2)] ∧
      (right.broadcastAll messages).registry.roster = [(1, 0), (3, 1)] ∧
      (left.broadcastAll messages).queueOf 2 = [Message.announcement, "hello"] := by
  intro left right messages
  have agree : AgreeBut (Equiv.swap 1 2) 1 left right := by
    refine ⟨by decide, fun other different => ?_, fun other different => ?_⟩
    · match other with
      | 0 => rfl
      | 2 => rfl
      | beyond + 3 => rfl
    · match other with
      | 0 => rfl
      | 2 => rfl
      | beyond + 3 => rfl
  obtain ⟨later, others⟩ := broadcastAll_spares_others agree messages
  refine ⟨agree, later, by decide, by decide, ?_⟩
  exact (others 2 (by decide) (by decide)).2

end PipeCast.Hub
