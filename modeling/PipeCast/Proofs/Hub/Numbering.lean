import PipeCast.Proofs.Hub.Entries
import PipeCast.Proofs.Hub.Removal

/-!
# Numbers handed out

Whoever asks for a number gets the one after the last, whatever is registered or removed
meanwhile. As long as the numbers have not come round and nobody registers any other number
than one that was handed out, and none twice, a number that is registered lies below the next
one and no registration takes the place of another.
-/

set_option autoImplicit false

namespace PipeCast.Hub

def Step.asksNumber : Step → Bool
  | .issue | .join _ => true
  | _ => false

theorem run_of_asksNumber {step : Step} (asks : step.asksNumber = true) (hub : Hub) :
    (step.run hub).2 = .id hub.registry.next ∧
      (step.run hub).1.registry.next = hub.registry.next + 1 := by
  cases step with
  | issue =>
      simp only [Step.run]
      exact ⟨rfl, rfl⟩
  | join name =>
      have kept := congrArg Registry.next (registry_vacate hub (.named name))
      simp only [Step.run]
      exact ⟨congrArg Reply.id kept, congrArg (· + 1) kept⟩
  | _ => cases asks

theorem next_run {step : Step} (plain : step.isPlain = true) (quiet : step.asksNumber = false)
    (hub : Hub) : (step.run hub).1.registry.next = hub.registry.next := by
  cases step with
  | openChannel name =>
      simp only [Step.run]
      exact congrArg Registry.next (registry_vacate hub (.named name))
  | clone name | dropHandle name | register id name =>
      simp only [Step.run, onHandle]
      cases hub.channelOf? (.named name) <;> rfl
  | dropReceiver name | drain name =>
      simp only [Step.run, onReceiver]
      cases hub.receiverOf? (.named name) <;> rfl
  | withdraw id name =>
      simp only [Step.run, onHandle]
      cases hub.channelOf? (.named name) with
      | none => rfl
      | some channel => exact hub.registry.next_withdraw id channel
  | unregister | keep =>
      simp only [Step.run]
      rfl
  | roster | isEmpty => simp only [Step.run]
  | showKept label | release label =>
      simp only [Step.run]
      cases hub.kept? label <;> rfl
  | sameClient first second =>
      simp only [Step.run, onHandle]
      cases hub.channelOf? (.named first) with
      | none => rfl
      | some left => cases hub.channelOf? (.named second) <;> rfl
  | deliver name text =>
      simp only [Step.run, onHandle]
      cases hub.channelOf? (.named name) with
      | none => rfl
      | some channel => exact congrArg Registry.next (registry_deliver hub channel .direct text)
  | issue | join => cases quiet
  | broadcast | readPipe => cases plain

namespace Moment

/-- What the next move answers to a step that asks for a number. -/
def numberAnswer? : Moment → Option Reply
  | ⟨hub, step :: _, _⟩ => if step.asksNumber then some (step.run hub).2 else none
  | _ => none

variable {steps : List Step} {passed : List Moment} {moment next : Moment} {id : ClientId}
  {channel : ChannelId}

theorem numberAnswer?_eq (moment : Moment) :
    moment.numberAnswer? = none ∨ moment.numberAnswer? = some (.id moment.hub.registry.next) := by
  obtain ⟨hub, todo, tours⟩ := moment
  cases todo with
  | nil => exact .inl rfl
  | cons step rest =>
      cases asks : step.asksNumber with
      | false => simp [numberAnswer?, asks]
      | true => simp [numberAnswer?, asks, (run_of_asksNumber asks hub).1]

theorem Next.next_eq (move : Next moment next) :
    next.hub.registry.next =
      if moment.numberAnswer?.isSome then moment.hub.registry.next + 1
      else moment.hub.registry.next := by
  cases move with
  | @act hub step todo tours plain =>
      cases asks : step.asksNumber with
      | false => simp [numberAnswer?, asks, next_run plain asks hub]
      | true => simp [numberAnswer?, asks, (run_of_asksNumber asks hub).2]
  | read | begin | finish => rfl
  | reach | miss => exact congrArg Registry.next (registry_deliver ..)
  | @remove hub tour entry => exact hub.registry.next_withdraw entry.1 entry.2

/-- Numbering starts at one and goes round after the last number there is. -/
theorem Passes.answers_eq (passes : Passes (start .fresh steps) passed moment) :
    passed.filterMap numberAnswer? =
        (List.range (passed.filterMap numberAnswer?).length).map
          (fun place => .id (UInt64.ofNat (place + 1))) ∧
      moment.hub.registry.next = UInt64.ofNat ((passed.filterMap numberAnswer?).length + 1) := by
  induction passes with
  | here => exact ⟨rfl, rfl⟩
  | @move passed moment next _ move ih =>
      obtain ⟨answered, counted⟩ := ih
      rw [filterMap_concat, move.next_eq]
      rcases moment.numberAnswer?_eq with unasked | asked
      · rw [unasked, Option.toList_none, List.append_nil]
        exact ⟨answered, counted⟩
      · rw [asked, Option.toList_some, List.length_append, List.length_singleton,
          List.range_succ, List.map_append, ← answered, counted]
        exact ⟨rfl, UInt64.ofNat_add .. |>.symm⟩

/-- Steps register no other numbers than those that were handed out, and none twice. A client
that joins registers the number that it is given. -/
inductive RegistersFresh : List Moment → Prop where
  | nil : RegistersFresh []
  | move {passed : List Moment} {moment : Moment} (registersFresh : RegistersFresh passed)
      (fresh : ∀ id channel, moment.operation? = some (.register id channel) →
        moment.numberAnswer? = none → .id id ∈ passed.filterMap numberAnswer? ∧
          ∀ other, .register id other ∉ passed.filterMap operation?) :
      RegistersFresh (passed ++ [moment])

theorem numberAnswer?_of_register (registers : moment.operation? = some (.register id channel)) :
    moment.numberAnswer? = none ∨ moment.numberAnswer? = some (.id id) := by
  refine moment.numberAnswer?_eq.imp_right fun asked => asked.trans ?_
  obtain ⟨hub, todo, tours⟩ := moment
  cases todo with
  | nil => cases asked
  | cons step rest =>
      cases step with
      | join name =>
          cases registers
          rfl
      | issue => cases registers
      | _ => cases asked

theorem Passes.registered_before (passes : Passes (start .fresh steps) passed moment)
    (present : moment.registered? id = some channel) :
    .register id channel ∈ passed.filterMap operation? := by
  rw [registered?, passes.roster_eq] at present
  obtain ⟨earlier, later, split, _⟩ := (Roster.find?_foldl_apply_eq_some_iff _).mp present
  rw [split]
  exact List.mem_append_right _ List.mem_cons_self

theorem RegistersFresh.handed_out (fresh : RegistersFresh passed)
    (registered : .register id channel ∈ passed.filterMap operation?) :
    .id id ∈ passed.filterMap numberAnswer? := by
  induction fresh with
  | nil => cases registered
  | @move passed moment _ fresh ih =>
      rw [filterMap_concat] at registered
      rw [filterMap_concat]
      rcases List.mem_append.mp registered with old | last
      · exact List.mem_append_left _ (ih old)
      · have registers := Option.mem_toList.mp last
        rcases numberAnswer?_of_register registers with unasked | asked
        · exact List.mem_append_left _ (fresh id channel registers unasked).1
        · exact List.mem_append_right _ (Option.mem_toList.mpr asked)

section

variable (passes : Passes (start .fresh steps) passed moment)
  (few : (passed.filterMap numberAnswer?).length < UInt64.size - 1)

include passes few

theorem Passes.bounds_of_handed_out (given : .id id ∈ passed.filterMap numberAnswer?) :
    1 ≤ id ∧ id < moment.hub.registry.next := by
  obtain ⟨answered, counted⟩ := passes.answers_eq
  rw [answered] at given
  obtain ⟨place, below, same⟩ := List.mem_map.mp given
  cases same
  have bound := List.mem_range.mp below
  rw [counted, UInt64.le_iff_toNat_le, UInt64.lt_iff_toNat_lt,
    UInt64.toNat_ofNat_of_lt' (by omega), UInt64.toNat_ofNat_of_lt' (by omega)]
  exact ⟨Nat.succ_le_succ (Nat.zero_le _), Nat.succ_lt_succ bound⟩

theorem RegistersFresh.replaces_nothing (fresh : RegistersFresh passed) :
    ∀ before ∈ passed, ∀ id channel, before.operation? = some (.register id channel) →
      before.registered? id = none := by
  induction fresh generalizing moment with
  | nil => nofun
  | @move passed before registersFresh fresh ih =>
      obtain ⟨reached, _⟩ := passes.split
      rw [filterMap_concat, List.length_append] at few
      have fewer := Nat.lt_of_le_of_lt (Nat.le_add_right _ _) few
      intro other member id channel registers
      rcases List.mem_append.mp member with old | last
      · exact ih reached fewer other old id channel registers
      · cases List.mem_singleton.mp last
        refine Option.eq_none_iff_forall_ne_some.mpr fun found present => ?_
        have known := reached.registered_before present
        rcases numberAnswer?_of_register registers with unasked | asked
        · exact (fresh id channel registers unasked).2 found known
        · -- The number that a client is given when it joins is the next one.
          have below := (reached.bounds_of_handed_out fewer (registersFresh.handed_out known)).2
          rcases before.numberAnswer?_eq with unasked | given
          · rw [asked] at unasked
            cases unasked
          · cases asked.symm.trans given
            exact UInt64.lt_irrefl _ below

end

theorem Passes.answer_at (passes : Passes (start .fresh steps) passed moment) {place : Nat}
    {reply : Reply} (found : (passed.filterMap numberAnswer?)[place]? = some reply) :
    reply = .id (UInt64.ofNat (place + 1)) := by
  rw [passes.answers_eq.1, List.getElem?_map, Option.map_eq_some_iff] at found
  obtain ⟨counted, present, made⟩ := found
  obtain ⟨_, same⟩ := List.getElem?_eq_some_iff.mp present
  rw [List.getElem_range] at same
  rw [← made, ← same]

/-- The answers to those who ask for a number count up from one and go round after the last
number there is, so none comes twice before all others have. Until then, and if steps register
only what was handed out and nothing twice, the numbers of the clients lie between one and the
number that comes next, and no registration takes the place of another. -/
theorem numbers_count_up (passes : Passes (start .fresh steps) passed moment) :
    Reaches moment (finished (Step.runAll steps .fresh).1) ∧
    (∀ (place : Nat) reply, (passed.filterMap numberAnswer?)[place]? = some reply →
      ∃ id, reply = .id id ∧ id.toNat = (place + 1) % UInt64.size) ∧
    (∀ first second reply, first < second → second < first + UInt64.size →
      (passed.filterMap numberAnswer?)[first]? = some reply →
        (passed.filterMap numberAnswer?)[second]? ≠ some reply) ∧
    ((passed.filterMap numberAnswer?).length < UInt64.size - 1 → RegistersFresh passed →
      (∀ entry ∈ moment.hub.registry.roster, 1 ≤ entry.1 ∧ entry.1 < moment.hub.issue.2) ∧
      ∀ before ∈ passed, ∀ id channel, before.operation? = some (.register id channel) →
        before.registered? id = none) := by
  refine ⟨OccursIn.reaches_finished passes.reaches, ?_, ?_, fun few fresh => ⟨?_, ?_⟩⟩
  · intro place reply found
    exact ⟨_, passes.answer_at found, UInt64.toNat_ofNat' ..⟩
  · intro first second reply order near found again
    have same := (passes.answer_at found).symm.trans (passes.answer_at again)
    have equal := congrArg UInt64.toNat (Reply.id.inj same)
    rw [UInt64.toNat_ofNat', UInt64.toNat_ofNat'] at equal
    rw [UInt64.size] at near
    omega
  · intro entry member
    have registered := passes.registered_before
      (Roster.find?_of_mem moment.hub.registry.ascending member)
    exact passes.bounds_of_handed_out few (fresh.handed_out registered)
  · exact fresh.replaces_nothing passes few

/-- A number that was asked for first is registered after another client has joined. -/
theorem late_registration_is_below_next :
    ∃ (passed : List Moment) (moment : Moment),
      Passes
        (start .fresh
          [.issue, .join "first", .openChannel "second", .register 1 "second", .unregister 2,
            .issue])
        passed moment ∧
      passed.filterMap numberAnswer? = [.id 1, .id 2, .id 3] ∧
      RegistersFresh passed ∧
      moment.hub.registry.roster = [(1, 1)] ∧
      (∀ entry ∈ moment.hub.registry.roster, 1 ≤ entry.1 ∧ entry.1 < moment.hub.issue.2) ∧
      ∀ before ∈ passed, ∀ id channel, before.operation? = some (.register id channel) →
        before.registered? id = none := by
  have passes : Passes
      (start .fresh
        [.issue, .join "first", .openChannel "second", .register 1 "second", .unregister 2,
          .issue]) _ _ :=
    .move (.move (.move (.move (.move (.move .here
      (.act rfl)) (.act rfl)) (.act rfl)) (.act rfl)) (.act rfl)) (.act rfl)
  obtain ⟨_, _, _, bounded⟩ := numbers_count_up passes
  suffices fresh : RegistersFresh _ from
    ⟨_, _, passes, rfl, fresh, rfl, bounded (by decide) fresh⟩
  refine .move (.move (.move (.move (.move (.move .nil nofun) ?joins) nofun) ?registers) nofun)
    nofun
  case joins =>
    intro id channel registers unasked
    cases unasked
  case registers =>
    intro id channel registers unasked
    cases registers
    refine ⟨List.mem_cons_self, fun other registered => ?_⟩
    cases List.mem_singleton.mp registered

end Moment

end PipeCast.Hub
