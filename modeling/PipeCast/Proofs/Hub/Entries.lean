import Mathlib.Data.List.Induction
import PipeCast.Proofs.Hub.Course
import PipeCast.Proofs.Hub.Simulation

/-!
# The registry and what has been done to it

Each move of a run carries out at most one operation on the entries of the registry, and the
registry is what those operations make of an empty one. So an entry stands if its number was
last registered with its channel and nothing has taken it away since, whoever did what to
other numbers or with other channels.
-/

set_option autoImplicit false

namespace PipeCast.Hub

/-! ## Operations on a roster -/

namespace Roster

/-- What can be done to entries. A removal by number and channel is asked for by a step, or
follows a failed delivery. -/
inductive Operation where
  | register (id : ClientId) (channel : ChannelId)
  | unregister (id : ClientId)
  | withdraw (id : ClientId) (channel : ChannelId)
  deriving DecidableEq, Repr

/-- The operations after which an entry does not stand on account of anything before them. -/
inductive Operation.Ends (id : ClientId) (channel : ChannelId) : Operation → Prop where
  | register (other : ChannelId) : Ends id channel (.register id other)
  | unregister : Ends id channel (.unregister id)
  | withdraw : Ends id channel (.withdraw id channel)

def apply (roster : Roster) : Operation → Roster
  | .register id channel => roster.insert id channel
  | .unregister id => roster.erase id
  | .withdraw id channel =>
      if roster.find? id = some channel then roster.erase id else roster

/-- The last registration of a number was with this channel, and the entry has not been
taken away since. -/
def LastRegistered (operations : List Operation) (id : ClientId) (channel : ChannelId) : Prop :=
  ∃ earlier later, operations = earlier ++ .register id channel :: later ∧
    ∀ operation ∈ later, ¬ operation.Ends id channel

variable {id : ClientId} {channel : ChannelId}

theorem find?_apply_eq_some_iff (roster : Roster) (operation : Operation) :
    (roster.apply operation).find? id = some channel ↔
      operation = .register id channel ∨
        (¬ operation.Ends id channel ∧ roster.find? id = some channel) := by
  cases operation with
  | register other found =>
      rw [apply, find?_insert]
      by_cases same : id = other
      · subst same
        have ends : Operation.Ends id channel (.register id found) := .register found
        simp [ends]
      · have spares : ¬ Operation.Ends id channel (.register other found) := by
          rintro ⟨⟩
          exact same rfl
        simp [same, Ne.symm same, spares]
  | unregister other =>
      rw [apply, find?_erase]
      by_cases same : id = other
      · subst same
        have ends : Operation.Ends id channel (.unregister id) := .unregister
        simp [ends]
      · have spares : ¬ Operation.Ends id channel (.unregister other) := by
          rintro ⟨⟩
          exact same rfl
        simp [same, spares]
  | withdraw other found =>
      rw [apply]
      by_cases same : id = other ∧ channel = found
      · obtain ⟨rfl, rfl⟩ := same
        have ends : Operation.Ends id channel (.withdraw id channel) := .withdraw
        by_cases present : roster.find? id = some channel <;> simp [ends, present]
      · have spares : ¬ Operation.Ends id channel (.withdraw other found) := by
          rintro ⟨⟩
          exact same ⟨rfl, rfl⟩
        by_cases present : roster.find? other = some found
        · rw [if_pos present, find?_erase]
          by_cases reached : id = other
          · subst reached
            have different : found ≠ channel := fun equal => same ⟨rfl, equal.symm⟩
            simp [present, different]
          · simp [reached, spares]
        · simp [present, spares]

theorem lastRegistered_append_iff (operations : List Operation) (operation : Operation) :
    LastRegistered (operations ++ [operation]) id channel ↔
      operation = .register id channel ∨
        (¬ operation.Ends id channel ∧ LastRegistered operations id channel) := by
  constructor
  · rintro ⟨earlier, later, split, spared⟩
    rcases List.eq_nil_or_concat later with rfl | ⟨between, last, rfl⟩
    · exact .inl (List.singleton_inj.mp (List.append_inj' split rfl).2)
    · rw [List.concat_eq_append, ← List.cons_append, ← List.append_assoc] at split
      obtain ⟨same, lastly⟩ := List.append_inj' split rfl
      cases lastly
      rw [List.concat_eq_append] at spared
      exact .inr ⟨spared operation (List.mem_append_right _ List.mem_cons_self), earlier, between,
        same, fun other member => spared other (List.mem_append_left _ member)⟩
  · rintro (rfl | ⟨spares, earlier, later, rfl, spared⟩)
    · exact ⟨operations, [], rfl, nofun⟩
    · refine ⟨earlier, later ++ [operation], List.append_assoc _ _ _, fun other member => ?_⟩
      rcases List.mem_append.mp member with old | last
      · exact spared other old
      · exact List.mem_singleton.mp last ▸ spares

theorem find?_foldl_apply_eq_some_iff (operations : List Operation) :
    Roster.find? (operations.foldl apply []) id = some channel ↔
      LastRegistered operations id channel := by
  induction operations using List.reverseRecOn with
  | nil =>
      constructor
      · nofun
      · rintro ⟨earlier, later, split, _⟩
        simp at split
  | append_singleton operations operation ih =>
      rw [List.foldl_append, List.foldl_cons, List.foldl_nil, find?_apply_eq_some_iff, ih,
        lastRegistered_append_iff]

end Roster

theorem roster_withdraw (hub : Hub) (cause : Cause) (id : ClientId) (channel : ChannelId) :
    (hub.withdraw cause id channel).1.registry.roster =
      hub.registry.roster.apply (.withdraw id channel) := by
  by_cases present : hub.registry.roster.find? id = some channel
  · simp [withdraw, record, Registry.withdraw, Registry.unregister, Roster.apply, present]
  · simp [withdraw, record, Registry.withdraw, Roster.apply, present]

/-! ## Operations of a run -/

namespace Moment

/-- The operation on entries that the next move carries out. -/
def operation? : Moment → Option Roster.Operation
  | ⟨hub, .join _ :: _, _⟩ => some (.register hub.registry.next hub.channels.size)
  | ⟨hub, .register id name :: _, _⟩ => (hub.channelOf? (.named name)).map (.register id)
  | ⟨_, .unregister id :: _, _⟩ => some (.unregister id)
  | ⟨hub, .withdraw id name :: _, _⟩ => (hub.channelOf? (.named name)).map (.withdraw id)
  | ⟨_, [], tour :: _⟩ => tour.failed.map fun entry => .withdraw entry.1 entry.2
  | _ => none

theorem roster_run {step : Step} (plain : step.isPlain = true) (hub : Hub) (todo : List Step)
    (tours : List Tour) :
    (step.run hub).1.registry.roster =
      (operation? ⟨hub, step :: todo, tours⟩).toList.foldl Roster.apply hub.registry.roster := by
  cases step with
  | openChannel name =>
      simp only [Step.run]
      exact congrArg Registry.roster (registry_vacate hub (.named name))
  | join name =>
      simp only [Step.run, operation?]
      change (hub.vacate (.named name)).registry.roster.insert
        (hub.vacate (.named name)).registry.next (hub.vacate (.named name)).channels.size = _
      rw [registry_vacate, size_channels_vacate]
      rfl
  | clone name copy =>
      simp only [Step.run, onHandle]
      cases hub.channelOf? (.named name) <;> rfl
  | dropHandle name =>
      simp only [Step.run, onHandle]
      cases hub.channelOf? (.named name) <;> rfl
  | dropReceiver name =>
      simp only [Step.run, onReceiver]
      cases hub.receiverOf? (.named name) <;> rfl
  | issue =>
      simp only [Step.run]
      rfl
  | register id name =>
      simp only [Step.run, onHandle, operation?]
      cases hub.channelOf? (.named name) <;> rfl
  | unregister id =>
      simp only [Step.run]
      rfl
  | withdraw id name =>
      simp only [Step.run, onHandle, operation?]
      cases hub.channelOf? (.named name) with
      | none => rfl
      | some channel => exact roster_withdraw hub .direct id channel
  | roster | isEmpty =>
      simp only [Step.run]
      rfl
  | keep label =>
      simp only [Step.run]
      rfl
  | showKept label | release label =>
      simp only [Step.run]
      cases hub.kept? label <;> rfl
  | sameClient first second =>
      simp only [Step.run, onHandle]
      cases hub.channelOf? (.named first) with
      | none => rfl
      | some left => cases hub.channelOf? (.named second) <;> rfl
  | deliver name text =>
      simp only [Step.run, onHandle]
      cases hub.channelOf? (.named name) with
      | none => rfl
      | some channel => exact congrArg Registry.roster (registry_deliver hub channel .direct text)
  | drain name =>
      simp only [Step.run, onReceiver]
      cases hub.receiverOf? (.named name) <;> rfl
  | broadcast | readPipe => cases plain

theorem Next.roster_eq {moment next : Moment} (move : Next moment next) :
    next.hub.registry.roster =
      moment.operation?.toList.foldl Roster.apply moment.hub.registry.roster := by
  cases move with
  | @act hub step todo tours plain => exact roster_run plain hub todo tours
  | read | begin => rfl
  | reach idle | miss idle =>
      rw [registry_deliver, operation?, idle]
      rfl
  | @remove hub tour entry tours failed =>
      rw [roster_withdraw, operation?, failed]
      rfl
  | finish idle =>
      rw [operation?, idle]
      rfl

theorem Passes.roster_eq {first moment : Moment} {passed : List Moment}
    (passes : Passes first passed moment) :
    moment.hub.registry.roster =
      (passed.filterMap operation?).foldl Roster.apply first.hub.registry.roster := by
  induction passes with
  | here => rfl
  | @move passed moment next _ move ih =>
      rw [move.roster_eq, ih, filterMap_concat, List.foldl_append]

variable {steps : List Step} {passed : List Moment} {moment : Moment}

/-- At every moment of a run the roster is in strictly ascending order, and an entry stands in
it if and only if the last registration of its number was with its channel and neither a
removal of the number nor one of the number and this channel has been carried out since. What
is done to other numbers, or asked for with another channel, makes no difference to it. -/
theorem registered_iff_last_registration (passes : Passes (start .fresh steps) passed moment) :
    Reaches moment (finished (Step.runAll steps .fresh).1) ∧
    moment.hub.registry.roster.IsAscending ∧
    (∀ id channel, (id, channel) ∈ moment.hub.registry.roster ↔
      Roster.LastRegistered (passed.filterMap operation?) id channel) ∧
    ∀ next, Next moment next → ∀ id channel,
      (∀ operation ∈ moment.operation?, ¬ operation.Ends id channel) →
        ((id, channel) ∈ next.hub.registry.roster ↔ (id, channel) ∈ moment.hub.registry.roster) := by
  refine ⟨OccursIn.reaches_finished passes.reaches, moment.hub.registry.ascending, ?_, ?_⟩
  · intro id channel
    rw [← Roster.find?_eq_some_iff moment.hub.registry.ascending, passes.roster_eq]
    exact Roster.find?_foldl_apply_eq_some_iff _
  · intro next move id channel spared
    rw [← Roster.find?_eq_some_iff moment.hub.registry.ascending,
      ← Roster.find?_eq_some_iff next.hub.registry.ascending, move.roster_eq]
    cases found : moment.operation? with
    | none => rfl
    | some operation =>
        have spares := spared operation found
        have other : operation ≠ .register id channel := by
          rintro rfl
          exact spares (.register channel)
        change (Roster.apply _ operation).find? id = some channel ↔ _
        rw [Roster.find?_apply_eq_some_iff]
        simp [spares, other]

/-- The clean-up after a failed delivery, with the channel that failed, does nothing to a
channel that was put under the same number meanwhile. -/
theorem newer_registration_stands :
    ∃ (passed : List Moment) (moment : Moment),
      Passes
        (start .fresh
          [.join "old", .dropReceiver "old",
            .broadcast (.line "one")
              [(0, [.openChannel "new", .register 1 "new", .broadcast (.line "two") []])]])
        passed moment ∧
      passed.filterMap operation? = [.register 1 0, .register 1 1, .withdraw 1 0] ∧
      (1, 1) ∈ moment.hub.registry.roster := by
  have stands : Roster.LastRegistered [.register 1 0, .register 1 1, .withdraw 1 0] 1 1 := by
    refine ⟨[.register 1 0], [.withdraw 1 0], rfl, fun operation member ends => ?_⟩
    cases List.mem_singleton.mp member
    cases ends
  have passes : Passes
      (start .fresh
        [.join "old", .dropReceiver "old",
          .broadcast (.line "one")
            [(0, [.openChannel "new", .register 1 "new", .broadcast (.line "two") []])]]) _ _ :=
    .move (.move (.move (.move (.move (.move (.move (.move (.move (.move (.move .here
      (.act rfl)) (.act rfl)) .begin) (.miss rfl rfl rfl)) (.act rfl)) (.act rfl))
      .begin) (.reach rfl rfl rfl)) (.finish rfl rfl)) (.remove rfl)) (.finish rfl rfl)
  exact ⟨_, _, passes, rfl,
    ((registered_iff_last_registration passes).2.2.1 1 1).mpr stands⟩

end Moment

end PipeCast.Hub
