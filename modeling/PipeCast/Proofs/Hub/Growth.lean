import PipeCast.Proofs.Hub.Moment

/-!
# How the history grows

Moves add to the history and take nothing back. What a plain step adds is on its
own account. What a broadcast adds carries its number, and a number is given to one
broadcast only, so the entries of broadcasts that began at different times never
mix.
-/

set_option autoImplicit false

namespace PipeCast.Hub

/-- The number of the broadcast on whose account something happened. -/
def Cause.number? : Cause → Option Nat
  | .direct => none
  | .broadcast number _ => some number

/-- The number of the broadcast that an event belongs to. -/
def Event.number? : Event → Option Nat
  | .withdrawn cause _ _ _ | .delivered cause _ _ _ => cause.number?
  | .began number _ _ | .ended number _ => some number
  | _ => none

/-! ## Plain steps -/

/-- What happens beside the broadcasts: none begins or ends, and no event is entered
on account of one. -/
structure Beside (before after : Hub) : Prop where
  begun : after.begun = before.begun
  underway : after.underway = before.underway
  history : ∃ events, after.history = before.history ++ events ∧
    ∀ event ∈ events, event.number? = none

namespace Beside

variable {before middle after : Hub}

theorem refl (hub : Hub) : hub.Beside hub :=
  ⟨rfl, rfl, [], (List.append_nil _).symm, nofun⟩

theorem record (beside : before.Beside middle) {event : Event}
    (begun : after.begun = middle.begun) (underway : after.underway = middle.underway)
    (history : after.history = middle.history ++ [event]) (apart : event.number? = none) :
    before.Beside after := by
  obtain ⟨sameBegun, sameUnderway, events, earlier, free⟩ := beside
  refine ⟨begun.trans sameBegun, underway.trans sameUnderway, events ++ [event], ?_, ?_⟩
  · rw [history, earlier, List.append_assoc]
  · intro other member
    rcases List.mem_append.mp member with old | last
    · exact free other old
    · exact List.mem_singleton.mp last ▸ apart

theorem isKept (before : Hub) : IsKept before.Beside where
  openChannel owner beside := beside.record rfl rfl (history_openChannel _ owner) rfl
  dropHandle _ beside := ⟨beside.begun, beside.underway, beside.history⟩
  addHandle _ _ _ _ beside := ⟨beside.begun, beside.underway, beside.history⟩
  dropReceiver _ beside := beside.record rfl rfl (history_dropReceiver _ _) rfl
  deliver _ _ beside :=
    beside.record (begun_deliver ..) (underway_deliver ..) (history_deliver ..) rfl
  drain _ beside := beside.record rfl rfl (history_drain _ _) rfl
  issue beside := beside.record rfl rfl (history_issue _) rfl
  register id _ _ _ beside := beside.record rfl rfl (history_register _ _ id) rfl
  unregister id beside := beside.record rfl rfl (history_unregister _ id) rfl
  withdraw id _ _ _ beside := beside.record rfl rfl (history_withdraw _ _ .direct id) rfl
  keep _ beside := ⟨beside.begun, beside.underway, beside.history⟩
  release _ beside := ⟨beside.begun, beside.underway, beside.history⟩

end Beside

theorem run_beside {step : Step} (plain : step.isPlain = true) (hub : Hub) :
    hub.Beside (step.run hub).1 :=
  (Beside.isKept hub).run (.refl hub) plain

/-! ## Moves -/

/-- The events after a moment, all of them on no broadcast's account or on account of
broadcasts that began after it. -/
structure Follows (before after : Hub) : Prop where
  begun : before.begun ≤ after.begun
  history : ∃ events, after.history = before.history ++ events ∧
    ∀ event ∈ events, ∀ number, event.number? = some number →
      before.begun ≤ number ∧ number < after.begun

namespace Follows

variable {before middle after : Hub}

theorem refl (hub : Hub) : hub.Follows hub :=
  ⟨Nat.le_refl _, [], (List.append_nil _).symm, nofun⟩

theorem trans (first : before.Follows middle) (second : middle.Follows after) :
    before.Follows after := by
  obtain ⟨begun, events, earlier, within⟩ := first
  obtain ⟨begunLater, eventsLater, later, withinLater⟩ := second
  refine ⟨Nat.le_trans begun begunLater, events ++ eventsLater, ?_, ?_⟩
  · rw [later, earlier, List.append_assoc]
  · intro event member number found
    rcases List.mem_append.mp member with old | new
    · have bounds := within event old number found
      exact ⟨bounds.1, Nat.lt_of_lt_of_le bounds.2 begunLater⟩
    · have bounds := withinLater event new number found
      exact ⟨Nat.le_trans begun bounds.1, bounds.2⟩

theorem record (follows : before.Follows middle) {event : Event}
    (begun : middle.begun ≤ after.begun)
    (history : after.history = middle.history ++ [event])
    (within : ∀ number, event.number? = some number →
      before.begun ≤ number ∧ number < after.begun) : before.Follows after := by
  obtain ⟨begunEarlier, events, earlier, withinEarlier⟩ := follows
  refine ⟨Nat.le_trans begunEarlier begun, events ++ [event], ?_, ?_⟩
  · rw [history, earlier, List.append_assoc]
  · intro other member number found
    rcases List.mem_append.mp member with old | last
    · have bounds := withinEarlier other old number found
      exact ⟨bounds.1, Nat.lt_of_lt_of_le bounds.2 begun⟩
    · exact within number (List.mem_singleton.mp last ▸ found)

end Follows

theorem Beside.follows {before after : Hub} (beside : before.Beside after) :
    before.Follows after := by
  obtain ⟨begun, _, events, history, free⟩ := beside
  refine ⟨Nat.le_of_eq begun.symm, events, history, ?_⟩
  intro event member number found
  rw [free event member] at found
  cases found

namespace Moment

theorem Next.history_prefix {moment next : Moment} (move : Next moment next) :
    moment.hub.history <+: next.hub.history := by
  cases move with
  | @act hub step todo tours plain =>
      obtain ⟨events, history, _⟩ := (run_beside plain hub).history
      exact ⟨events, history.symm⟩
  | read => exact List.prefix_rfl
  | begin => exact ⟨_, (history_begin ..).symm⟩
  | reach | miss => exact ⟨_, (history_deliver ..).symm⟩
  | remove => exact ⟨_, (history_withdraw ..).symm⟩
  | finish => exact ⟨_, (history_finish ..).symm⟩

theorem Reaches.history_prefix {first moment : Moment} (reaches : Reaches first moment) :
    first.hub.history <+: moment.hub.history := by
  induction reaches with
  | refl => exact List.prefix_rfl
  | tail _ move ih => exact ih.trans move.history_prefix

/-- A moment that comes after a hub: every broadcast under way began after it. -/
structure Since (before : Hub) (moment : Moment) : Prop where
  follows : before.Follows moment.hub
  tours : ∀ tour ∈ moment.tours, before.begun ≤ tour.number ∧ tour.number < moment.hub.begun

namespace Since

variable {before hub changed : Hub} {todo todo' : List Step} {tour tour' : Tour}
  {tours : List Tour}

theorem record (since : Since before ⟨hub, todo, tour :: tours⟩) {event : Event}
    (begun : changed.begun = hub.begun) (history : changed.history = hub.history ++ [event])
    (own : event.number? = some tour.number) (same : tour'.number = tour.number) :
    Since before ⟨changed, todo', tour' :: tours⟩ := by
  have bounds := since.tours tour List.mem_cons_self
  refine ⟨since.follows.record (Nat.le_of_eq begun.symm) history ?_, ?_⟩
  · intro number found
    cases own.symm.trans found
    rw [begun]
    exact bounds
  · intro other member
    rw [begun]
    rcases List.mem_cons.mp member with head | later
    · rw [head, same]
      exact bounds
    · exact since.tours other (List.mem_cons_of_mem _ later)

theorem next {moment next : Moment} (since : Since before moment) (move : Next moment next) :
    Since before next := by
  cases move with
  | @act hub step todo tours plain =>
      have beside := run_beside plain hub
      refine ⟨since.follows.trans beside.follows, ?_⟩
      intro tour member
      rw [beside.begun]
      exact since.tours tour member
  | read => exact ⟨since.follows, since.tours⟩
  | begin =>
      refine ⟨since.follows.record (Nat.le_succ _) (history_begin _ _) ?_, ?_⟩
      · intro number found
        cases found
        exact ⟨since.follows.begun, Nat.lt_succ_self _⟩
      · intro tour member
        rcases List.mem_cons.mp member with new | old
        · subst new
          exact ⟨since.follows.begun, Nat.lt_succ_self _⟩
        · have bounds := since.tours tour old
          exact ⟨bounds.1, Nat.lt_succ_of_lt bounds.2⟩
  | reach | miss => exact since.record (begun_deliver ..) (history_deliver ..) rfl rfl
  | remove => exact since.record rfl (history_withdraw ..) rfl rfl
  | @finish hub tour tours idle done =>
      have ended : Since before
          ⟨hub.finish tour.number tour.report, tour.later, tour :: tours⟩ :=
        since.record rfl (history_finish ..) rfl rfl
      exact ⟨ended.follows, fun tour member => ended.tours tour (List.mem_cons_of_mem _ member)⟩

theorem reaches {first moment : Moment} (since : Since before first)
    (reaches : Reaches first moment) : Since before moment := by
  induction reaches with
  | refl => exact since
  | tail _ move ih => exact ih.next move

end Since

theorem Reaches.since {hub : Hub} {steps : List Step} {moment : Moment}
    (reaches : Reaches (start hub steps) moment) : Since hub moment := by
  have first : Since hub (start hub steps) := by
    refine ⟨.refl hub, ?_⟩
    intro tour member
    cases member
  exact first.reaches reaches

end Moment

end PipeCast.Hub
