import PipeCast.Message

/-!
# The registry of clients

Which channel is registered under which number. Entries are kept in ascending
order of their numbers, which is the order in which a broadcast visits them; a
registry carries the proof. One channel may stand under several numbers; a number
leads to at most one channel.
-/

set_option autoImplicit false

namespace PipeCast.Hub

/-- The identity of a channel: its place among all channels opened so far. Two
handles lead to the same client exactly when they carry the same identity. -/
abbrev ChannelId := Nat

/-- Clients by number. A roster taken from a registry is in ascending order. -/
abbrev Roster := List (ClientId × ChannelId)

namespace Roster

def find? (roster : Roster) (id : ClientId) : Option ChannelId :=
  roster.lookup id

/-- Puts a channel under a number and keeps the order. A channel that stood there
before is replaced. -/
def insert (id : ClientId) (channel : ChannelId) : Roster → Roster
  | [] => [(id, channel)]
  | entry :: rest =>
      if id < entry.1 then (id, channel) :: entry :: rest
      else if id = entry.1 then (id, channel) :: rest
      else entry :: insert id channel rest

def erase (id : ClientId) (roster : Roster) : Roster :=
  roster.filter fun entry => entry.1 ≠ id

/-- Whether a channel stands under any number. -/
def holds (roster : Roster) (channel : ChannelId) : Bool :=
  roster.any fun entry => entry.2 = channel

/-- No number occurs twice, and smaller numbers come first. -/
abbrev IsAscending (roster : Roster) : Prop :=
  roster.Pairwise fun first second => first.1 < second.1

theorem eq_or_mem_of_mem_insert {id : ClientId} {channel : ChannelId} {roster : Roster}
    {entry : ClientId × ChannelId} (member : entry ∈ roster.insert id channel) :
    entry = (id, channel) ∨ entry ∈ roster := by
  induction roster with
  | nil => simpa [insert] using member
  | cons head rest ih =>
      simp only [insert] at member
      split at member
      · simpa using member
      · split at member
        · rcases List.mem_cons.mp member with same | old
          · exact .inl same
          · exact .inr (List.mem_cons_of_mem _ old)
        · rcases List.mem_cons.mp member with same | later
          · exact .inr (same ▸ List.mem_cons_self)
          · exact (ih later).imp_right (List.mem_cons_of_mem _)

theorem IsAscending.insert {roster : Roster} (ascending : roster.IsAscending) (id : ClientId)
    (channel : ChannelId) : (roster.insert id channel).IsAscending := by
  induction roster with
  | nil => exact List.pairwise_singleton _ _
  | cons head rest ih =>
      obtain ⟨above, ascendingRest⟩ := List.pairwise_cons.mp ascending
      simp only [Roster.insert]
      split
      · rename_i below
        refine List.pairwise_cons.mpr ⟨?_, ascending⟩
        intro entry member
        rcases List.mem_cons.mp member with same | later
        · exact same ▸ below
        · exact UInt64.lt_trans below (above entry later)
      · rename_i notBelow
        split
        · rename_i same
          exact List.pairwise_cons.mpr ⟨same ▸ above, ascendingRest⟩
        · rename_i different
          refine List.pairwise_cons.mpr ⟨?_, ih ascendingRest⟩
          intro entry member
          rcases eq_or_mem_of_mem_insert member with inserted | old
          · have headBelow : head.1 < id :=
              UInt64.lt_of_le_of_ne (UInt64.not_lt.mp notBelow) (Ne.symm different)
            exact inserted ▸ headBelow
          · exact above entry old

theorem IsAscending.erase {roster : Roster} (ascending : roster.IsAscending) (id : ClientId) :
    (roster.erase id).IsAscending :=
  ascending.filter _

end Roster

/-- The registered clients and the number to be handed out next. -/
structure Registry where
  roster : Roster
  next : ClientId
  /-- The order in which a broadcast visits the clients. -/
  ascending : roster.IsAscending
  deriving DecidableEq, Repr

namespace Registry

/-- Nobody is registered, and numbering starts at one. -/
def empty : Registry := ⟨[], 1, .nil⟩

def size (registry : Registry) : Nat := registry.roster.length

def isEmpty (registry : Registry) : Bool := registry.roster.isEmpty

/-- Hands out a number. Registration does not influence which one. -/
def issue (registry : Registry) : Registry × ClientId :=
  ({ registry with next := registry.next + 1 }, registry.next)

def register (registry : Registry) (id : ClientId) (channel : ChannelId) : Registry :=
  { registry with
    roster := registry.roster.insert id channel
    ascending := registry.ascending.insert id channel }

def unregister (registry : Registry) (id : ClientId) : Registry :=
  { registry with
    roster := registry.roster.erase id
    ascending := registry.ascending.erase id }

/-- Removes the entry under a number only if it leads to the given channel, and
says whether it did. -/
def withdraw (registry : Registry) (id : ClientId) (channel : ChannelId) : Registry × Bool :=
  if registry.roster.find? id = some channel then (registry.unregister id, true)
  else (registry, false)

end Registry

end PipeCast.Hub
