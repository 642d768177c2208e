import PipeCast.Proofs.Hub.Ledger

/-!
# The course of a run

The moments that a run passes, in order, and what is done at each: which delivery is
attempted, what is taken from a queue and which broadcast begins. The history tells
the same.
-/

set_option autoImplicit false

namespace PipeCast.Hub

namespace Moment

/-- A run passes some moments, one move after each, and comes to another. -/
inductive Passes (first : Moment) : List Moment → Moment → Prop where
  | here : Passes first [] first
  | move {passed : List Moment} {moment next : Moment} (passes : Passes first passed moment)
      (move : Next moment next) : Passes first (passed ++ [moment]) next

theorem Passes.reaches {first moment : Moment} {passed : List Moment}
    (passes : Passes first passed moment) : Reaches first moment := by
  induction passes with
  | here => exact .refl
  | move _ move ih => exact ih.tail move

theorem Reaches.exists_passes {first moment : Moment} (reaches : Reaches first moment) :
    ∃ passed, Passes first passed moment := by
  induction reaches with
  | refl => exact ⟨[], .here⟩
  | tail _ move ih =>
      obtain ⟨passed, passes⟩ := ih
      exact ⟨_, passes.move move⟩

theorem Passes.split {first middle moment : Moment} {earlier later : List Moment}
    (passes : Passes first (earlier ++ middle :: later) moment) :
    Passes first earlier middle ∧ ∃ next, Next middle next ∧ Passes next later moment := by
  generalize shape : earlier ++ middle :: later = passed at passes
  induction passes generalizing later with
  | here => simp at shape
  | @move passed last moment passes move ih =>
      rcases List.eq_nil_or_concat later with rfl | ⟨between, other, rfl⟩
      · obtain ⟨rfl, same⟩ := List.append_inj' shape rfl
        cases same
        exact ⟨passes, moment, move, .here⟩
      · rw [List.concat_eq_append, ← List.cons_append, ← List.append_assoc] at shape
        obtain ⟨sooner, same⟩ := List.append_inj' shape rfl
        cases same
        obtain ⟨before, next, first, between⟩ := ih sooner
        refine ⟨before, next, first, ?_⟩
        rw [List.concat_eq_append]
        exact between.move move

/-- The delivery that the next move attempts. -/
def due : Moment → Option Delivery
  | ⟨hub, .deliver name text :: _, _⟩ =>
      (hub.channelOf? (.named name)).map fun channel =>
        ⟨.direct, channel, text, hub.isLive channel⟩
  | ⟨hub, [], tour :: _⟩ =>
      match tour.failed, tour.ahead with
      | none, entry :: _ =>
          some ⟨tour.cause entry, entry.2, tour.message.text, hub.isLive entry.2⟩
      | _, _ => none
  | _ => none

/-- The texts that the next move takes from a channel and returns. -/
def taken (channel : ChannelId) : Moment → List String
  | ⟨hub, .drain name :: _, _⟩ =>
      match hub.receiverOf? (.named name), ((Step.drain name).run hub).2 with
      | some found, .drained texts _ => if found = channel then texts else []
      | _, _ => []
  | _ => []

/-- The broadcast that the next move begins. -/
def beginning : Moment → Option Sending
  | ⟨hub, .broadcast message _ :: _, _⟩ => some ⟨hub.begun, message, hub.registry.roster⟩
  | _ => none

end Moment

def Step.isSilent : Step → Bool
  | .deliver _ _ | .drain _ | .broadcast _ _ | .readPipe _ => false
  | _ => true

/-- Nothing is delivered and nothing is taken from a queue. -/
structure Silent (before after : Hub) : Prop where
  deliveries : deliveries after.history = deliveries before.history
  drained : ∀ channel, drainedFrom channel after.history = drainedFrom channel before.history

namespace Silent

theorem refl (hub : Hub) : hub.Silent hub := ⟨rfl, fun _ => rfl⟩

theorem record {before middle after : Hub} (silent : before.Silent middle) {event : Event}
    (history : after.history = middle.history ++ [event]) (nothing : event.delivery? = none)
    (untaken : ∀ channel, event.drainedFrom channel = []) : before.Silent after := by
  constructor
  · rw [history, deliveries_append, deliveries_singleton, nothing, silent.deliveries]
    exact List.append_nil _
  · intro channel
    rw [history, drainedFrom_append, drainedFrom_singleton, untaken, silent.drained,
      List.append_nil]

theorem vacate (hub : Hub) (holder : Holder) : hub.Silent (hub.vacate holder) := by
  unfold Hub.vacate
  split
  · have dropped : hub.Silent (hub.dropHandle holder) := ⟨rfl, fun _ => rfl⟩
    exact dropped.record (history_dropReceiver _ _) rfl fun _ => rfl
  · exact ⟨rfl, fun _ => rfl⟩

theorem openChannel (hub : Hub) (holder : Holder) :
    hub.Silent ((hub.vacate holder).openChannel holder).1 :=
  (vacate hub holder).record (history_openChannel _ _) rfl fun _ => rfl

theorem run {step : Step} (quiet : step.isSilent = true) (hub : Hub) :
    hub.Silent (step.run hub).1 := by
  have here := refl hub
  cases step with
  | openChannel name =>
      simp only [Step.run]
      exact openChannel hub (.named name)
  | join name =>
      simp only [Step.run]
      have opened := openChannel hub (.named name)
      have issued := opened.record (history_issue _) rfl fun _ => rfl
      exact issued.record (history_register _ _ _) rfl fun _ => rfl
  | clone name copy =>
      simp only [Step.run]
      exact onHandle_keeps here fun _ _ => ⟨rfl, fun _ => rfl⟩
  | dropHandle name =>
      simp only [Step.run]
      exact onHandle_keeps here fun _ _ => ⟨rfl, fun _ => rfl⟩
  | dropReceiver name =>
      simp only [Step.run]
      exact onReceiver_keeps here fun channel _ =>
        here.record (history_dropReceiver hub channel) rfl fun _ => rfl
  | issue =>
      simp only [Step.run]
      exact here.record (history_issue hub) rfl fun _ => rfl
  | register id name =>
      simp only [Step.run]
      exact onHandle_keeps here fun channel _ =>
        here.record (history_register hub channel id) rfl fun _ => rfl
  | unregister id =>
      simp only [Step.run]
      exact here.record (history_unregister hub id) rfl fun _ => rfl
  | withdraw id name =>
      simp only [Step.run]
      exact onHandle_keeps here fun channel _ =>
        here.record (history_withdraw hub channel .direct id) rfl fun _ => rfl
  | roster | isEmpty => simpa only [Step.run] using here
  | keep label =>
      simp only [Step.run]
      exact ⟨rfl, fun _ => rfl⟩
  | showKept label =>
      simp only [Step.run]
      split <;> exact here
  | release label =>
      simp only [Step.run]
      split <;> exact ⟨rfl, fun _ => rfl⟩
  | sameClient first second =>
      simp only [Step.run]
      exact onHandle_keeps here fun _ _ => onHandle_keeps here fun _ _ => here
  | deliver | drain | broadcast | readPipe => cases quiet

end Silent

namespace Moment

theorem nothing_told {step : Step} (quiet : step.isSilent = true) (hub : Hub)
    (todo : List Step) (tours : List Tour) :
    due ⟨hub, step :: todo, tours⟩ = none ∧
      ∀ channel, taken channel ⟨hub, step :: todo, tours⟩ = [] := by
  cases step <;> first | exact ⟨rfl, fun _ => rfl⟩ | cases quiet

theorem run_told {step : Step} (plain : step.isPlain = true) (hub : Hub) (todo : List Step)
    (tours : List Tour) :
    deliveries (step.run hub).1.history =
        deliveries hub.history ++ (due ⟨hub, step :: todo, tours⟩).toList ∧
      ∀ channel, drainedFrom channel (step.run hub).1.history =
        drainedFrom channel hub.history ++ taken channel ⟨hub, step :: todo, tours⟩ := by
  cases quiet : step.isSilent with
  | true =>
      obtain ⟨delivered, drained⟩ := Silent.run quiet hub
      obtain ⟨nothing, untaken⟩ := nothing_told quiet hub todo tours
      constructor
      · rw [delivered, nothing]
        exact (List.append_nil _).symm
      · intro channel
        rw [drained, untaken, List.append_nil]
  | false =>
      cases step with
      | deliver name text =>
          simp only [Step.run, onHandle, due, taken]
          cases found : hub.channelOf? (.named name) with
          | none => simp
          | some channel => simp
      | drain name =>
          simp only [Step.run, onReceiver, due, taken]
          cases found : hub.receiverOf? (.named name) with
          | none => simp
          | some channel => simp
      | broadcast | readPipe => cases plain
      | _ => cases quiet

theorem beginning_of_isPlain {step : Step} (plain : step.isPlain = true) (hub : Hub)
    (todo : List Step) (tours : List Tour) :
    beginning ⟨hub, step :: todo, tours⟩ = none := by
  cases step <;> first | rfl | cases plain

theorem due_of_idle {hub : Hub} {tour : Tour} {tours : List Tour}
    {entry : ClientId × ChannelId} {ahead : Roster} (idle : tour.failed = none)
    (next : tour.ahead = entry :: ahead) :
    due ⟨hub, [], tour :: tours⟩ =
      some ⟨tour.cause entry, entry.2, tour.message.text, hub.isLive entry.2⟩ := by
  simp only [due, idle, next]

theorem due_of_failed {hub : Hub} {tour : Tour} {tours : List Tour}
    {entry : ClientId × ChannelId} (failed : tour.failed = some entry) :
    due ⟨hub, [], tour :: tours⟩ = none := by
  simp only [due, failed]

theorem due_of_done {hub : Hub} {tour : Tour} {tours : List Tour} (done : tour.ahead = []) :
    due ⟨hub, [], tour :: tours⟩ = none := by
  cases failed : tour.failed <;> simp only [due, failed, done]

theorem Next.told {moment next : Moment} (move : Next moment next) :
    deliveries next.hub.history = deliveries moment.hub.history ++ moment.due.toList ∧
    (∀ channel, drainedFrom channel next.hub.history =
      drainedFrom channel moment.hub.history ++ moment.taken channel) ∧
    sendings next.hub.history = sendings moment.hub.history ++ moment.beginning.toList := by
  cases move with
  | @act hub step todo tours plain =>
      obtain ⟨delivered, drained⟩ := run_told plain hub todo tours
      obtain ⟨_, _, events, history, free⟩ := run_beside plain hub
      refine ⟨delivered, drained, ?_⟩
      rw [history, sendings_append, sendings_eq_nil free, beginning_of_isPlain plain]
      rfl
  | read => simp [due, taken, beginning]
  | begin => simp [due, taken, beginning]
  | reach idle next | miss idle next => simp [due_of_idle idle next, taken, beginning]
  | remove failed => simp [due_of_failed failed, taken, beginning]
  | finish idle done => simp [due_of_done done, taken, beginning]

/-- A delivery puts its text at the end of its own queue, if the receiver exists, and
changes no other queue. -/
theorem Next.queueOf_of_due {moment next : Moment} (move : Next moment next)
    {attempt : Delivery} (found : moment.due = some attempt) :
    attempt.succeeded = moment.hub.isLive attempt.channel ∧
    ∀ channel, next.hub.queueOf channel = moment.hub.queueOf channel ++
      if channel = attempt.channel ∧ attempt.succeeded = true then [attempt.text] else [] := by
  cases move with
  | @act hub step todo tours plain =>
      cases step with
      | deliver name text =>
          obtain ⟨channel, handle, made⟩ := Option.map_eq_some_iff.mp found
          subst made
          refine ⟨rfl, fun other => ?_⟩
          simp only [Step.run, onHandle, handle]
          exact queueOf_deliver ..
      | broadcast | readPipe => cases plain
      | _ => cases found
  | read | begin => cases found
  | reach idle next | miss idle next =>
      rw [due_of_idle idle next] at found
      cases found
      exact ⟨rfl, fun other => queueOf_deliver ..⟩
  | remove failed =>
      rw [due_of_failed failed] at found
      cases found
  | finish idle done =>
      rw [due_of_done done] at found
      cases found

theorem filterMap_concat {Told : Type} (told : Moment → Option Told) (passed : List Moment)
    (moment : Moment) :
    (passed ++ [moment]).filterMap told = passed.filterMap told ++ (told moment).toList := by
  rw [List.filterMap_append]
  cases found : told moment <;> simp [found]

/-- The history tells the course of a run. -/
theorem Passes.told {first moment : Moment} {passed : List Moment}
    (passes : Passes first passed moment) :
    deliveries moment.hub.history = deliveries first.hub.history ++ passed.filterMap due ∧
    (∀ channel, drainedFrom channel moment.hub.history =
      drainedFrom channel first.hub.history ++ passed.flatMap (taken channel)) ∧
    sendings moment.hub.history =
      sendings first.hub.history ++ passed.filterMap beginning := by
  induction passes with
  | here => simp
  | @move passed moment next _ move ih =>
      obtain ⟨delivered, drained, began⟩ := move.told
      obtain ⟨deliveredBefore, drainedBefore, beganBefore⟩ := ih
      refine ⟨?_, ?_, ?_⟩
      · rw [delivered, deliveredBefore, List.append_assoc, filterMap_concat]
      · intro channel
        rw [drained, drainedBefore, List.append_assoc, List.flatMap_append, List.flatMap_singleton]
      · rw [began, beganBefore, List.append_assoc, filterMap_concat]

end Moment

end PipeCast.Hub
