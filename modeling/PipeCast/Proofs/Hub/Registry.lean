import PipeCast.Hub.Registry

/-!
# Looking up the registry

What stands under a number after each operation of the registry. An operation on
one number says nothing about any other. A roster in ascending order is determined by
its entries, and what is looked up there is what stands there.
-/

set_option autoImplicit false

namespace PipeCast.Hub

namespace Roster

theorem find?_cons (entry : ClientId × ChannelId) (rest : Roster) (id : ClientId) :
    find? (entry :: rest) id = if id = entry.1 then some entry.2 else find? rest id := by
  rw [find?, List.lookup_cons]
  by_cases same : id = entry.1
  · simp [same]
  · have different : (id == entry.1) = false := by simpa using same
    rw [different, if_neg same]
    rfl

@[simp] theorem find?_insert (roster : Roster) (id other : ClientId) (channel : ChannelId) :
    (roster.insert id channel).find? other =
      if other = id then some channel else roster.find? other := by
  induction roster with
  | nil => simp [insert, find?_cons]
  | cons entry rest ih =>
      simp only [insert]
      split
      · rw [find?_cons]
      · split
        · rename_i same
          subst same
          by_cases wanted : other = entry.1 <;> simp [find?_cons, wanted]
        · rename_i different
          rw [find?_cons, ih, find?_cons]
          by_cases wanted : other = entry.1
          · simp [wanted, Ne.symm different]
          · simp [wanted]

@[simp] theorem find?_erase (roster : Roster) (id other : ClientId) :
    (roster.erase id).find? other = if other = id then none else roster.find? other := by
  induction roster with
  | nil => simp [erase, find?, List.lookup_nil]
  | cons entry rest ih =>
      by_cases erased : entry.1 = id
      · have dropped : erase id (entry :: rest) = erase id rest := by
          simp [erase, erased]
        rw [dropped, ih, find?_cons, erased]
        split <;> rfl
      · have remains : erase id (entry :: rest) = entry :: erase id rest := by
          simp [erase, erased]
        rw [remains, find?_cons, ih, find?_cons]
        by_cases wanted : other = entry.1
        · have absent : other ≠ id := fun same => erased (wanted ▸ same)
          simp [wanted, erased]
        · simp [wanted]

/-! ## Ascending rosters -/

theorem find?_of_mem {roster : Roster} (ascending : roster.IsAscending)
    {entry : ClientId × ChannelId} (member : entry ∈ roster) :
    roster.find? entry.1 = some entry.2 := by
  induction roster with
  | nil => cases member
  | cons head rest ih =>
      obtain ⟨above, ascendingRest⟩ := List.pairwise_cons.mp ascending
      rw [find?_cons]
      rcases List.mem_cons.mp member with same | later
      · rw [same, if_pos rfl]
      · have different : entry.1 ≠ head.1 := (UInt64.ne_of_lt (above entry later)).symm
        rw [if_neg different]
        exact ih ascendingRest later

theorem mem_of_find? {roster : Roster} {id : ClientId} {channel : ChannelId}
    (found : roster.find? id = some channel) : (id, channel) ∈ roster := by
  obtain ⟨before, after, split, _⟩ := List.lookup_eq_some_iff.mp found
  rw [split]
  exact List.mem_append_right _ List.mem_cons_self

theorem find?_filter {roster : Roster} (ascending : roster.IsAscending)
    (keeps : ChannelId → Bool) (id : ClientId) :
    find? (roster.filter fun entry => keeps entry.2) id =
      (roster.find? id).filter keeps := by
  induction roster with
  | nil => rfl
  | cons head rest ih =>
      obtain ⟨above, ascendingRest⟩ := List.pairwise_cons.mp ascending
      rw [find?_cons head rest]
      by_cases same : id = head.1
      · rw [if_pos same, Option.filter_some]
        cases kept : keeps head.2 with
        | true =>
            simp only [List.filter_cons, kept, if_true]
            rw [find?_cons, if_pos same]
        | false =>
            have absent : find? rest id = none := by
              refine Option.eq_none_iff_forall_ne_some.mpr fun channel found => ?_
              have later := above _ (mem_of_find? found)
              rw [same] at later
              exact UInt64.lt_irrefl _ later
            simp only [List.filter_cons, kept, Bool.false_eq_true, if_false]
            rw [ih ascendingRest, absent]
            rfl
      · rw [if_neg same, ← ih ascendingRest]
        cases kept : keeps head.2 with
        | true =>
            simp only [List.filter_cons, kept, if_true]
            rw [find?_cons, if_neg same]
        | false => simp only [List.filter_cons, kept, Bool.false_eq_true, if_false]

theorem erase_middle {before after : Roster} {entry : ClientId × ChannelId}
    (ascending : (before ++ entry :: after).IsAscending) :
    (before ++ entry :: after).erase entry.1 = before ++ after := by
  obtain ⟨_, later, below⟩ := List.pairwise_append.mp ascending
  have above := (List.pairwise_cons.mp later).1
  rw [erase, List.filter_append, List.filter_cons_of_neg (by simp)]
  congr 1
  · refine List.filter_eq_self.mpr fun other member => ?_
    simpa using UInt64.ne_of_lt (below other member entry List.mem_cons_self)
  · refine List.filter_eq_self.mpr fun other member => ?_
    simpa using (UInt64.ne_of_lt (above other member)).symm

theorem find?_eq_some_iff {roster : Roster} (ascending : roster.IsAscending) {id : ClientId}
    {channel : ChannelId} : roster.find? id = some channel ↔ (id, channel) ∈ roster :=
  ⟨mem_of_find?, find?_of_mem ascending⟩

theorem length_insert {roster : Roster} (ascending : roster.IsAscending) (id : ClientId)
    (channel : ChannelId) :
    (roster.insert id channel).length = roster.length + (roster.find? id).isNone.toNat := by
  induction roster with
  | nil => rfl
  | cons head rest ih =>
      obtain ⟨above, ascendingRest⟩ := List.pairwise_cons.mp ascending
      simp only [insert]
      split
      · rename_i below
        have absent : find? (head :: rest) id = none := by
          refine Option.eq_none_iff_forall_ne_some.mpr fun found present => ?_
          rcases List.mem_cons.mp (mem_of_find? present) with rfl | later
          · exact UInt64.lt_irrefl _ below
          · exact UInt64.lt_irrefl _ (UInt64.lt_trans below (above _ later))
        rw [absent]
        rfl
      · split
        · rename_i same
          rw [find?_cons, if_pos same]
          rfl
        · rename_i different
          rw [find?_cons, if_neg different, List.length_cons, ih ascendingRest, List.length_cons,
            Nat.add_right_comm]

theorem erase_of_find?_eq_none {roster : Roster} (ascending : roster.IsAscending) {id : ClientId}
    (absent : roster.find? id = none) : roster.erase id = roster := by
  refine List.filter_eq_self.mpr fun entry member => ?_
  have different : entry.1 ≠ id := by
    rintro rfl
    have present := find?_of_mem ascending member
    rw [absent] at present
    cases present
  simpa using different

theorem length_erase {roster : Roster} (ascending : roster.IsAscending) (id : ClientId) :
    (roster.erase id).length + (roster.find? id).isSome.toNat = roster.length := by
  cases found : roster.find? id with
  | none =>
      rw [erase_of_find?_eq_none ascending found]
      rfl
  | some channel =>
      obtain ⟨before, after, rfl⟩ := List.append_of_mem (mem_of_find? found)
      rw [erase_middle ascending, List.length_append, List.length_append, List.length_cons,
        Option.isSome_some, Bool.toNat_true, Nat.add_assoc]

theorem IsAscending.nodup {roster : Roster} (ascending : roster.IsAscending) : roster.Nodup :=
  ascending.imp fun below same => UInt64.ne_of_lt below (congrArg Prod.fst same)

/-- Two rosters with the same entries are the same. -/
theorem IsAscending.ext {first second : Roster} (ascending : first.IsAscending)
    (ascendingToo : second.IsAscending) (same : ∀ entry, entry ∈ first ↔ entry ∈ second) :
    first = second := by
  have permuted : first.Perm second :=
    (List.perm_ext_iff_of_nodup ascending.nodup ascendingToo.nodup).mpr same
  refine permuted.eq_of_pairwise (fun left right _ _ below above => ?_) ascending ascendingToo
  exact (UInt64.lt_irrefl _ (UInt64.lt_trans below above)).elim

end Roster

namespace Registry

/-- A removal by number and channel takes that entry away and no other. -/
theorem find?_withdraw (registry : Registry) (id other : ClientId) (channel : ChannelId) :
    (registry.withdraw id channel).1.roster.find? other =
      if other = id ∧ registry.roster.find? id = some channel then none
      else registry.roster.find? other := by
  by_cases present : registry.roster.find? id = some channel
  · simp [withdraw, present, unregister]
  · simp [withdraw, present]

@[simp] theorem next_withdraw (registry : Registry) (id : ClientId) (channel : ChannelId) :
    (registry.withdraw id channel).1.next = registry.next := by
  unfold withdraw
  split <;> rfl

theorem mem_of_mem_withdraw {registry : Registry} {id : ClientId} {channel : ChannelId}
    {entry : ClientId × ChannelId}
    (member : entry ∈ (registry.withdraw id channel).1.roster) : entry ∈ registry.roster := by
  unfold withdraw at member
  split at member
  · exact (List.mem_filter.mp member).1
  · exact member

end Registry

end PipeCast.Hub
