import PipeCast.Proofs.Hub.Course
import PipeCast.Proofs.Hub.Simulation

/-!
# When a channel closes

A channel is closed when no handle of it is left: none with a holder, none in the registry,
none in a roster that somebody keeps and none in the roster of a broadcast under way. Whoever
drains it is told so. Every handle is made from one that is there, so a channel that is closed
stays closed, and nothing is put into its queue any more. What was put there before waits for
the first drain that finds it closed.
-/

set_option autoImplicit false

namespace PipeCast.Hub

/-! ## Channels without a handle -/

theorem isHeld_eq_false_iff {hub : Hub} {channel : ChannelId} :
    hub.isHeld channel = false ↔ AllHeld (· ≠ channel) hub := by
  simp only [isHeld, Roster.holds, Bool.or_eq_false_iff, List.any_eq_false, List.any_eq_true,
    decide_eq_true_eq, not_exists, not_and]
  constructor
  · rintro ⟨⟨⟨handles, registered⟩, kept⟩, underway⟩
    exact ⟨handles, registered, kept, underway⟩
  · rintro ⟨handles, registered, kept, underway⟩
    exact ⟨⟨⟨handles, registered⟩, kept⟩, underway⟩

/-- A channel has been opened and no handle of it is left. -/
structure Unheld (channel : ChannelId) (hub : Hub) : Prop
    extends AllHeld (· ≠ channel) hub where
  opened : channel < hub.channels.size

theorem Unheld.isKept (channel : ChannelId) : IsKept (Unheld channel) where
  openChannel owner unheld :=
    ⟨unheld.toAllHeld.openChannel owner (Nat.ne_of_gt unheld.opened),
      by simpa [Hub.openChannel, record] using Nat.lt_succ_of_lt unheld.opened⟩
  dropHandle holder unheld := ⟨unheld.toAllHeld.dropHandle holder, unheld.opened⟩
  addHandle holder _ _ found unheld :=
    ⟨unheld.toAllHeld.addHandle holder (unheld.holds_of_channelOf? found), unheld.opened⟩
  dropReceiver _ unheld :=
    ⟨unheld.toAllHeld.of_same rfl rfl rfl rfl, by simpa using unheld.opened⟩
  deliver text _ unheld :=
    ⟨unheld.toAllHeld.deliver .direct text, by simpa [size_channels_deliver] using unheld.opened⟩
  drain _ unheld := ⟨unheld.toAllHeld.of_same rfl rfl rfl rfl, by simpa using unheld.opened⟩
  issue unheld := ⟨unheld.toAllHeld.of_same rfl rfl rfl rfl, unheld.opened⟩
  register id _ _ found unheld :=
    ⟨unheld.toAllHeld.register id (unheld.holds_of_channelOf? found), unheld.opened⟩
  unregister id unheld := ⟨unheld.toAllHeld.unregister id, unheld.opened⟩
  withdraw id _ other _ unheld := ⟨unheld.toAllHeld.withdraw .direct id other, unheld.opened⟩
  keep name unheld := ⟨unheld.toAllHeld.keep name, unheld.opened⟩
  release name unheld := ⟨unheld.toAllHeld.release name, unheld.opened⟩

namespace Moment

/-- A handle of a channel is left: with somebody, in the registry, in a roster that is kept or
in that of a broadcast under way. -/
inductive Holds (moment : Moment) (channel : ChannelId) : Prop where
  | named (holder : Holder) (member : (holder, channel) ∈ moment.hub.handles)
  | registered (id : ClientId) (member : (id, channel) ∈ moment.hub.registry.roster)
  | kept (name : String) (roster : Roster) (label : (name, roster) ∈ moment.hub.kept)
      (id : ClientId) (member : (id, channel) ∈ roster)
  | underway (tour : Tour) (begun : tour ∈ moment.tours) (id : ClientId)
      (member : (id, channel) ∈ tour.roster)

/-- The answer of the next move, if it drains the channel. -/
def drained? (channel : ChannelId) : Moment → Option (List String × Bool)
  | ⟨hub, .drain name :: _, _⟩ =>
      match hub.receiverOf? (.named name), ((Step.drain name).run hub).2 with
      | some found, .drained texts closed =>
          if found = channel then some (texts, closed) else none
      | _, _ => none
  | _ => none

variable {moment next : Moment} {channel : ChannelId}

theorem Sound.holds_iff (sound : Sound moment) :
    moment.Holds channel ↔ moment.hub.isHeld channel = true := by
  rw [← not_iff_not, Bool.not_eq_true, isHeld_eq_false_iff]
  constructor
  · intro free
    refine ⟨?_, ?_, ?_, ?_⟩
    · rintro ⟨holder, _⟩ member rfl
      exact free (.named holder member)
    · rintro ⟨id, _⟩ member rfl
      exact free (.registered id member)
    · rintro ⟨name, roster⟩ label ⟨id, _⟩ member rfl
      exact free (.kept name roster label id member)
    · rw [sound.underway]
      intro roster begun
      obtain ⟨tour, under, rfl⟩ := List.mem_map.mp begun
      rintro ⟨id, _⟩ member rfl
      exact free (.underway tour under id member)
  · intro free held
    cases held with
    | named holder member => exact free.handles _ member rfl
    | registered id member => exact free.registered _ member rfl
    | kept name roster label id member => exact free.kept _ label _ member rfl
    | underway tour begun id member =>
        refine free.underway tour.roster ?_ _ member rfl
        rw [sound.underway]
        exact List.mem_map_of_mem begun

theorem holds_of_due {attempt : Delivery} (found : moment.due = some attempt) :
    moment.Holds attempt.channel := by
  obtain ⟨hub, todo, tours⟩ := moment
  cases todo with
  | cons step rest =>
      cases step with
      | deliver name text =>
          obtain ⟨channel, handle, rfl⟩ := Option.map_eq_some_iff.mp found
          exact .named (.named name) (mem_handles_of_channelOf? handle)
      | _ => cases found
  | nil =>
      cases tours with
      | nil => cases found
      | cons tour outer =>
          rcases tour.turn_cases with ⟨entry, failed⟩ | ⟨_, done⟩ | ⟨entry, ahead, idle, turn⟩
          · rw [due_of_failed failed] at found
            cases found
          · rw [due_of_done done] at found
            cases found
          · rw [due_of_idle idle turn] at found
            cases found
            exact .underway tour List.mem_cons_self entry.1 (tour.mem_roster turn)

theorem drained?_cases (moment : Moment) (channel : ChannelId) :
    (moment.drained? channel = none ∧ moment.taken channel = []) ∨
      (moment.hub.isLive channel = true ∧
        moment.drained? channel = some (moment.hub.drain channel).2 ∧
        moment.taken channel = moment.hub.queueOf channel) := by
  obtain ⟨hub, todo, tours⟩ := moment
  cases todo with
  | nil => exact .inl ⟨rfl, rfl⟩
  | cons step rest =>
      cases step with
      | drain name =>
          simp only [drained?, taken, Step.run, onReceiver]
          cases found : hub.receiverOf? (.named name) with
          | none => exact .inl ⟨rfl, rfl⟩
          | some other =>
              by_cases same : other = channel
              · subst same
                exact .inr ⟨isLive_of_receiverOf? found, by simp, by simp⟩
              · exact .inl (by simp [same])
      | _ => exact .inl ⟨rfl, rfl⟩

theorem Next.unheld (move : Next moment next) (unheld : Unheld channel moment.hub) :
    Unheld channel next.hub := by
  cases move with
  | act plain => exact (Unheld.isKept channel).run unheld plain
  | read => exact unheld
  | begin => exact ⟨unheld.toAllHeld.begin _, unheld.opened⟩
  | reach | miss =>
      refine ⟨unheld.toAllHeld.deliver _ _, ?_⟩
      rw [size_channels_deliver]
      exact unheld.opened
  | remove => exact ⟨unheld.toAllHeld.withdraw _ _ _, unheld.opened⟩
  | finish => exact ⟨unheld.toAllHeld.finish _ _, unheld.opened⟩

theorem Next.isLive_of_isLive (sound : Sound moment) (move : Next moment next)
    (opened : channel < moment.hub.channels.size) (live : next.hub.isLive channel = true) :
    moment.hub.isLive channel = true := by
  rw [← Bool.not_eq_false]
  intro dead
  have dropped := (sound.accounted.dropped channel).mpr ⟨opened, dead⟩
  exact (sound.next move).accounted.undropped_of_isLive live (move.history_prefix.subset dropped)

/-- While a receiver exists, what waits is what waited before and what is delivered, less what
is taken. -/
theorem Next.queueOf_eq (sound : Sound moment) (move : Next moment next)
    (live : next.hub.isLive channel = true) :
    moment.hub.queueOf channel ++
        (moment.due.toList.filter fun attempt => attempt.channel = channel).map Delivery.text =
      moment.taken channel ++ next.hub.queueOf channel := by
  have undropped := (sound.next move).accounted.undropped_of_isLive live
  obtain ⟨delivered, drained, _⟩ := move.told
  have before := sound.accounted.queued channel fun dropped =>
    undropped (move.history_prefix.subset dropped)
  have after := (sound.next move).accounted.queued channel undropped
  rw [drained, deliveriesTo, delivered, List.filter_append, List.map_append, List.append_assoc]
    at after
  rw [deliveriesTo] at before
  rw [← before, List.append_assoc] at after
  exact (List.append_cancel_left after).symm

theorem Next.idle_of_released (move : Next moment next)
    (held : moment.hub.isHeld channel = true) (released : next.hub.isHeld channel = false) :
    moment.due = none ∧ moment.drained? channel = none := by
  have kept (same : next.hub.isHeld channel = moment.hub.isHeld channel) : False := by
    rw [held, released] at same
    cases same
  cases move with
  | @act hub step todo tours plain =>
      cases step with
      | deliver name text =>
          refine (kept ?_).elim
          simp only [Step.run, onHandle]
          cases hub.channelOf? (.named name) with
          | none => rfl
          | some other => exact isHeld_deliver ..
      | drain name =>
          refine (kept ?_).elim
          simp only [Step.run, onReceiver]
          cases hub.receiverOf? (.named name) <;> rfl
      | broadcast | readPipe => cases plain
      | _ => exact ⟨rfl, rfl⟩
  | read | begin => exact ⟨rfl, rfl⟩
  | reach | miss => exact (kept (isHeld_deliver ..)).elim
  | remove failed => exact ⟨due_of_failed failed, rfl⟩
  | finish idle done => exact ⟨due_of_done done, rfl⟩

/-- The answers to the drains of a channel that is closed: the first returns what waits, and
nothing comes after it. -/
def IsLast (waiting : List String) (answers : List (List String × Bool)) : Prop :=
  answers = [] ∨ ∃ later, answers = (waiting, true) :: List.replicate later ([], true)

/-- A channel of which no handle is left, with the answers to its drains since then. -/
structure Closed (channel : ChannelId) (waiting : List String) (moment : Moment)
    (answers : List (List String × Bool)) : Prop where
  sound : Sound moment
  unheld : Unheld channel moment.hub
  last : IsLast waiting answers
  waits : moment.hub.isLive channel = true →
    moment.hub.queueOf channel = if answers = [] then waiting else []

namespace Closed

variable {waiting : List String} {answers : List (List String × Bool)}

theorem start (sound : Sound moment) (unheld : Unheld channel moment.hub) :
    Closed channel (moment.hub.queueOf channel) moment [] :=
  ⟨sound, unheld, .inl rfl, fun _ => rfl⟩

theorem queueOf_eq (closed : Closed channel waiting moment answers) (move : Next moment next)
    (live : next.hub.isLive channel = true) :
    moment.hub.isLive channel = true ∧
      moment.hub.queueOf channel = moment.taken channel ++ next.hub.queueOf channel := by
  have queued := move.queueOf_eq closed.sound live
  have nothing : moment.due.toList.filter (fun attempt => attempt.channel = channel) = [] := by
    refine List.filter_eq_nil_iff.mpr fun attempt member same => ?_
    have held := closed.sound.holds_iff.mp (holds_of_due (Option.mem_toList.mp member))
    rw [of_decide_eq_true same, isHeld_eq_false_iff.mpr closed.unheld.toAllHeld] at held
    cases held
  rw [nothing, List.map_nil, List.append_nil] at queued
  exact ⟨move.isLive_of_isLive closed.sound closed.unheld.opened live, queued⟩

theorem move (closed : Closed channel waiting moment answers) (move : Next moment next) :
    Closed channel waiting next (answers ++ (moment.drained? channel).toList) := by
  have unheld := move.unheld closed.unheld
  rcases drained?_cases moment channel with ⟨nothing, untaken⟩ | ⟨live, answer, taken⟩
  · rw [nothing, Option.toList_none, List.append_nil]
    refine ⟨closed.sound.next move, unheld, closed.last, fun liveAfter => ?_⟩
    obtain ⟨live, queued⟩ := closed.queueOf_eq move liveAfter
    rw [untaken, List.nil_append] at queued
    rw [← queued]
    exact closed.waits live
  · have free := isHeld_eq_false_iff.mpr closed.unheld.toAllHeld
    have waits := closed.waits live
    rw [answer, drain_snd, free, Option.toList_some, Bool.not_false, waits]
    refine ⟨closed.sound.next move, unheld, ?_, fun liveAfter => ?_⟩
    · rcases closed.last with rfl | ⟨later, rfl⟩
      · exact .inr ⟨0, rfl⟩
      · refine .inr ⟨later + 1, ?_⟩
        simp [List.replicate_succ']
    · obtain ⟨_, queued⟩ := closed.queueOf_eq move liveAfter
      rw [taken] at queued
      simpa using queued

theorem passes (closed : Closed channel waiting moment answers) {passed : List Moment}
    {later : Moment} (passes : Passes moment passed later) :
    Closed channel waiting later (answers ++ passed.filterMap (drained? channel)) := by
  induction passes with
  | here => simpa using closed
  | @move passed between after _ move ih =>
      rw [filterMap_concat, ← List.append_assoc]
      exact ih.move move

end Closed

variable {steps : List Step}

/-- A drain takes all that waits in a channel whose receiver exists, and tells it closed if and
only if no handle of it is left. Once none is left none ever comes back, and the drains that
follow find the channel closed: the first returns what waited when the last handle went, the
others nothing. -/
theorem drain_tells_closed_iff_not_holds (occurs : moment.OccursIn steps)
    (live : moment.hub.isLive channel = true) :
    Reaches moment (finished (Step.runAll steps .fresh).1) ∧
    (∃ closed, (moment.hub.drain channel).2 = (moment.hub.queueOf channel, closed) ∧
      (closed = true ↔ ¬ moment.Holds channel)) ∧
    (∀ answer, moment.drained? channel = some answer →
      answer = (moment.hub.drain channel).2) ∧
    (¬ moment.Holds channel → ∀ passed later, Passes moment passed later →
      ¬ later.Holds channel ∧
        IsLast (moment.hub.queueOf channel) (passed.filterMap (drained? channel))) ∧
    ∀ next, Next moment next → moment.Holds channel → ¬ next.Holds channel →
      next.hub.isLive channel = true → ∀ passed later, Passes next passed later →
        IsLast (moment.hub.queueOf channel) (passed.filterMap (drained? channel)) := by
  have sound := occurs.sound
  have opened := lt_size_of_isLive live
  refine ⟨occurs.reaches_finished, ⟨!moment.hub.isHeld channel, rfl, ?_⟩, ?_, ?_, ?_⟩
  · rw [sound.holds_iff, Bool.not_eq_true, Bool.not_eq_true']
  · intro answer found
    rcases drained?_cases moment channel with ⟨nothing, _⟩ | ⟨_, answered, _⟩
    · cases nothing.symm.trans found
    · exact Option.some.inj (found.symm.trans answered)
  · intro free passed later passes
    have unheld : Unheld channel moment.hub :=
      ⟨isHeld_eq_false_iff.mp (by rwa [sound.holds_iff, Bool.not_eq_true] at free), opened⟩
    have closed := (Closed.start sound unheld).passes passes
    refine ⟨?_, closed.last⟩
    rw [closed.sound.holds_iff, Bool.not_eq_true]
    exact isHeld_eq_false_iff.mpr closed.unheld.toAllHeld
  · intro next move held released liveAfter passed later passes
    rw [sound.holds_iff] at held
    rw [(sound.next move).holds_iff, Bool.not_eq_true] at released
    obtain ⟨undelivered, undrained⟩ := move.idle_of_released held released
    have untaken : moment.taken channel = [] := by
      rcases drained?_cases moment channel with ⟨_, nothing⟩ | ⟨_, answered, _⟩
      · exact nothing
      · cases undrained.symm.trans answered
    have same : moment.hub.queueOf channel = next.hub.queueOf channel := by
      simpa [undelivered, untaken] using move.queueOf_eq sound liveAfter
    have unheld : Unheld channel next.hub :=
      ⟨isHeld_eq_false_iff.mp released, lt_size_of_isLive liveAfter⟩
    rw [same]
    exact ((Closed.start (sound.next move) unheld).passes passes).last

/-- A client that leaves while a broadcast holds its channel finds it empty and not closed. Its
text is still delivered, and it finds the channel closed once the broadcast has ended. -/
theorem closed_after_broadcast :
    let steps : List Step :=
      [.join "gone", .join "leaving", .dropReceiver "gone", .dropHandle "leaving",
        .broadcast (.line "one") [(0, [.unregister 2, .drain "leaving"])],
        .drain "leaving", .drain "leaving"]
    ∃ (during before after last : Moment) (passed : List Moment),
      during.OccursIn steps ∧ during.hub.isLive 1 = true ∧
      during.drained? 1 = some ([], false) ∧ during.Holds 1 ∧
      before.OccursIn steps ∧ before.hub.isLive 1 = true ∧ Next before after ∧
      before.Holds 1 ∧ ¬ after.Holds 1 ∧ after.hub.isLive 1 = true ∧ Passes after passed last ∧
      IsLast ["one"] (passed.filterMap (drained? 1)) ∧
      passed.filterMap (drained? 1) = [(["one"], true), ([], true)] := by
  intro steps
  have during : Moment.OccursIn _ steps :=
    .head (.act rfl) (.head (.act rfl) (.head (.act rfl) (.head (.act rfl) (.head .begin
      (.head (.miss rfl rfl rfl) (.head (.act rfl) .refl))))))
  have before : Moment.OccursIn _ steps :=
    .tail (.tail (.tail during (.act rfl)) (.remove rfl)) (.reach rfl rfl rfl)
  have after : Moment.OccursIn _ steps := .tail before (.finish rfl rfl)
  obtain ⟨_, ⟨closed, answer, told⟩, _⟩ := @drain_tells_closed_iff_not_holds _ 1 steps after rfl
  have released := told.mp (congrArg Prod.snd answer).symm
  obtain ⟨_, _, _, _, drains⟩ := @drain_tells_closed_iff_not_holds _ 1 steps before rfl
  refine ⟨_, _, _, _, _, during, rfl, rfl, .underway _ List.mem_cons_self 2 (by decide), before,
    rfl, .finish rfl rfl, .underway _ List.mem_cons_self 2 (by decide), released, rfl,
    .move (.move .here (.act rfl)) (.act rfl), ?_, rfl⟩
  exact drains _ (.finish rfl rfl) (.underway _ List.mem_cons_self 2 (by decide)) released rfl _ _
    (.move (.move .here (.act rfl)) (.act rfl))

end Moment

end PipeCast.Hub
