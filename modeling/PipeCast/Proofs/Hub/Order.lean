import PipeCast.Proofs.Hub.Conservation
import PipeCast.Proofs.Hub.Nesting

/-!
# The order of copies

A broadcast that begins within another comes at the turn of an entry whose delivery failed.
The other broadcast waits beneath it: the entries up to that one have had their turn before,
and those after it have theirs when the inner broadcast is over. So a client gets the copies
of both in an order that depends on which side of the failed entry it stands. Broadcasts
that are not within one another do not mix.
-/

set_option autoImplicit false

namespace PipeCast.Hub

namespace Roster

variable {before ahead : Roster} {missed id : ClientId} {lost channel : ChannelId}

theorem IsAscending.filter_visited_of_lt
    (ascending : (before ++ (missed, lost) :: ahead).IsAscending)
    (once : (before ++ (missed, lost) :: ahead).filter (fun entry => entry.2 = channel) =
      [(id, channel)]) (below : id < missed) :
    (before ++ [(missed, lost)]).filter (fun entry => entry.2 = channel) = [(id, channel)] := by
  rw [List.append_cons, List.filter_append] at once
  have none : ahead.filter (fun entry => entry.2 = channel) = [] := by
    refine List.eq_nil_iff_forall_not_mem.mpr fun entry member => ?_
    have present : entry ∈ [(id, channel)] := once ▸ List.mem_append_right _ member
    cases List.mem_singleton.mp present
    have above := (List.pairwise_cons.mp (List.pairwise_append.mp ascending).2.1).1
    exact UInt64.lt_irrefl _ (UInt64.lt_trans below (above _ (List.mem_filter.mp member).1))
  rwa [none, List.append_nil] at once

theorem IsAscending.filter_visited_of_gt
    (ascending : (before ++ (missed, lost) :: ahead).IsAscending)
    (once : (before ++ (missed, lost) :: ahead).filter (fun entry => entry.2 = channel) =
      [(id, channel)]) (above : missed < id) :
    (before ++ [(missed, lost)]).filter (fun entry => entry.2 = channel) = [] := by
  rw [List.append_cons, List.filter_append] at once
  refine List.eq_nil_iff_forall_not_mem.mpr fun entry member => ?_
  have present : entry ∈ [(id, channel)] := once ▸ List.mem_append_left _ member
  cases List.mem_singleton.mp present
  rcases List.mem_append.mp (List.mem_filter.mp member).1 with sooner | last
  · have below := (List.pairwise_append.mp ascending).2.2 _ sooner _ List.mem_cons_self
    exact UInt64.lt_irrefl _ (UInt64.lt_trans above below)
  · cases List.mem_singleton.mp last
    exact UInt64.lt_irrefl _ above

end Roster

namespace Moment

variable {steps : List Step} {moment : Moment} {passed : List Moment}

/-! ## What has been sent -/

/-- What the moves from some moments send to a channel, in order. -/
def sentTo (channel : ChannelId) (passed : List Moment) : List Delivery :=
  (passed.filterMap due).filter fun delivery => delivery.channel = channel

/-- A delivery on account of one of these two broadcasts. -/
def isOfEither (first second : Sending) (delivery : Delivery) : Bool :=
  delivery.cause.number? = some first.number || delivery.cause.number? = some second.number

/-- What is sent to a channel on account of one broadcast. -/
def copiesTo (channel : ChannelId) (sending : Sending) (passed : List Moment) : List Delivery :=
  (attempts sending.number passed).filter fun delivery => delivery.channel = channel

section

variable (channel : ChannelId) (earlier later : List Moment) (outer inner : Sending)

theorem copiesTo_append :
    copiesTo channel outer (earlier ++ later) =
      copiesTo channel outer earlier ++ copiesTo channel outer later := by
  rw [copiesTo, attempts_append, List.filter_append]
  rfl

theorem filter_isOfEither_comm :
    (sentTo channel passed).filter (isOfEither outer inner) =
      (sentTo channel passed).filter (isOfEither inner outer) :=
  List.filter_congr fun _ _ => Bool.or_comm _ _

theorem filter_isOfEither_of_eq_nil {channel : ChannelId} {outer inner : Sending}
    (none : copiesTo channel inner passed = []) :
    (sentTo channel passed).filter (isOfEither outer inner) = copiesTo channel outer passed := by
  rw [copiesTo, attempts, List.filter_comm]
  refine List.filter_congr fun delivery member => ?_
  have other : delivery ∉ copiesTo channel inner passed := by
    rw [none]
    exact List.not_mem_nil
  rw [copiesTo, attempts, List.filter_comm, List.mem_filter, not_and] at other
  have apart := other member
  simp only [decide_eq_true_eq] at apart
  simp [isOfEither, apart]

end

theorem exists_due_of_single {channel : ChannelId} {sending : Sending} {delivery : Delivery}
    (single : copiesTo channel sending passed = [delivery]) :
    ∃ earlier middle later, passed = earlier ++ middle :: later ∧
      middle.due = some delivery ∧ copiesTo channel sending earlier = [] := by
  have copied : delivery ∈ copiesTo channel sending passed := by
    rw [single]
    exact List.mem_singleton_self _
  obtain ⟨attempted, here⟩ := List.mem_filter.mp copied
  obtain ⟨due, own⟩ := List.mem_filter.mp attempted
  obtain ⟨middle, member, found⟩ := List.mem_filterMap.mp due
  obtain ⟨earlier, later, rfl⟩ := List.append_of_mem member
  refine ⟨earlier, middle, later, rfl, found, ?_⟩
  rw [copiesTo_append] at single
  rcases List.append_eq_singleton_iff.mp single with ⟨nothing, _⟩ | ⟨_, nothing⟩
  · exact nothing
  · have again : delivery ∈ copiesTo channel sending (middle :: later) :=
      List.mem_filter.mpr ⟨List.mem_filter.mpr
        ⟨List.mem_filterMap.mpr ⟨middle, List.mem_cons_self, found⟩, own⟩, here⟩
    rw [nothing] at again
    cases again

/-- Where the copies of one broadcast end before those of another begin, they do not mix. -/
theorem filter_isOfEither_of_split {channel : ChannelId} {earlier later : List Moment}
    {outer inner : Sending} (noneBefore : copiesTo channel inner earlier = [])
    (noneAfter : copiesTo channel outer later = []) :
    (sentTo channel (earlier ++ later)).filter (isOfEither outer inner) =
      copiesTo channel outer (earlier ++ later) ++ copiesTo channel inner (earlier ++ later) := by
  have parts : sentTo channel (earlier ++ later) =
      sentTo channel earlier ++ sentTo channel later := by
    rw [sentTo, List.filterMap_append, List.filter_append]
    rfl
  rw [parts, List.filter_append, filter_isOfEither_of_eq_nil noneBefore,
    filter_isOfEither_comm, filter_isOfEither_of_eq_nil noneAfter, copiesTo_append,
    copiesTo_append, noneBefore, noneAfter, List.append_nil, List.nil_append]

namespace Passes

variable {sending : Sending} {channel : ChannelId}

theorem attempts_eq_copies (passes : Passes (start .fresh steps) passed moment) (number : Nat) :
    attempts number passed = copies number moment.hub.history :=
  (congrArg (List.filter _) passes.told.1).symm

theorem attempts_attempted (passes : Passes (start .fresh steps) passed moment)
    (began : sending ∈ passed.filterMap beginning) :
    (attempts sending.number passed).map Delivery.attempted =
      (come moment.tours sending).map sending.copy := by
  rw [← passes.sendings_eq] at began
  rw [passes.attempts_eq_copies]
  exact (OccursIn.ledger passes.reaches).delivered sending began

theorem copiesTo_attempted (passes : Passes (start .fresh steps) passed moment)
    (began : sending ∈ passed.filterMap beginning) (channel : ChannelId) :
    (copiesTo channel sending passed).map Delivery.attempted =
      ((come moment.tours sending).filter fun entry => entry.2 = channel).map sending.copy := by
  rw [← passes.sendings_eq] at began
  rw [copiesTo, passes.attempts_eq_copies]
  exact (OccursIn.ledger passes.reaches).copies_to began channel

theorem copiesTo_of_live (passes : Passes (start .fresh steps) passed moment)
    (began : sending ∈ passed.filterMap beginning) (live : moment.hub.isLive channel = true) :
    copiesTo channel sending passed =
      ((come moment.tours sending).filter fun entry => entry.2 = channel).map sending.copy := by
  have unchanged : ∀ delivery ∈ copiesTo channel sending passed,
      delivery.attempted = delivery := by
    intro delivery member
    obtain ⟨attempted, here⟩ := List.mem_filter.mp member
    have same : delivery.channel = channel := of_decide_eq_true here
    have told : delivery ∈ deliveries moment.hub.history := by
      rw [passes.attempts_eq_copies] at attempted
      exact (List.mem_filter.mp attempted).1
    have succeeded := (OccursIn.sound passes.reaches).succeeded told (same ▸ live)
    rw [Delivery.attempted, ← succeeded]
  rw [← passes.copiesTo_attempted began, List.map_congr_left unchanged, List.map_id']

theorem copiesTo_of_once (passes : Passes (start .fresh steps) passed moment)
    (began : sending ∈ passed.filterMap beginning) (ended : sending.number ∉ moment.numbers)
    (live : moment.hub.isLive channel = true) {id : ClientId}
    (once : sending.roster.filter (fun entry => entry.2 = channel) = [(id, channel)]) :
    copiesTo channel sending passed = [sending.copy (id, channel)] := by
  rw [passes.copiesTo_of_live began live, come_of_over ended, once, List.map_singleton]

theorem sentTo_texts (passes : Passes (start .fresh steps) passed moment)
    (live : moment.hub.isLive channel = true) :
    passed.flatMap (taken channel) ++ moment.hub.queueOf channel =
      (sentTo channel passed).map Delivery.text := by
  have accounted := (OccursIn.sound passes.reaches).accounted
  obtain ⟨delivered, drained, _⟩ := passes.told
  have queued := accounted.queued channel (accounted.undropped_of_isLive live)
  rw [drained, deliveriesTo, delivered] at queued
  exact queued

end Passes

/-! ## Broadcasts that begin later -/

section

variable {middle before : Moment} {earlier later : List Moment} {sending outer inner : Sending}

/-- When a broadcast is over, nothing more is sent on its account. -/
theorem Passes.attempts_eq_nil_of_over
    (passes : Passes (start .fresh steps) (earlier ++ middle :: later) moment)
    (began : sending ∈ earlier.filterMap beginning) (ended : sending.number ∉ middle.numbers) :
    attempts sending.number (middle :: later) = [] := by
  obtain ⟨reached, _⟩ := passes.split
  have beganToo := mem_beginning_append began (middle :: later)
  have complete := congrArg List.length (reached.attempts_attempted began)
  have total := congrArg List.length (passes.attempts_attempted beganToo)
  rw [come_of_over ended, List.length_map, List.length_map] at complete
  rw [attempts_append, List.length_map, List.length_append, List.length_map, complete] at total
  have bounded : (come moment.tours sending).length ≤ sending.roster.length := by
    have ledger := OccursIn.ledger passes.reaches
    rw [← passes.sendings_eq] at beganToo
    exact (ledger.come_prefix beganToo).length_le
  exact List.length_eq_zero_iff.mp (by omega)

/-- Before a broadcast begins, nothing is sent on its account. -/
theorem Passes.attempts_eq_nil_of_beginning (passes : Passes (start .fresh steps) passed before)
    (begins : before.beginning = some sending) : attempts sending.number passed = [] := by
  obtain ⟨hub, message, scripts, todo, tours, rfl, rfl⟩ := exists_of_beginning begins
  rw [passes.attempts_eq_copies]
  exact (Reaches.since passes.reaches).copies_eq_nil (Nat.le_refl _)

theorem Passes.filter_isOfEither_of_apart (passes : Passes (start .fresh steps) passed moment)
    (firstBegan : outer ∈ passed.filterMap beginning)
    (secondBegan : inner ∈ passed.filterMap beginning) (sooner : outer.number < inner.number)
    (apart : ∀ failed, ¬ BeginsWithin passed outer inner failed) (channel : ChannelId) :
    (sentTo channel passed).filter (isOfEither outer inner) =
      copiesTo channel outer passed ++ copiesTo channel inner passed := by
  obtain ⟨before, member, begins⟩ := List.mem_filterMap.mp secondBegan
  obtain ⟨earlier, later, rfl⟩ := List.append_of_mem member
  obtain ⟨reached, _⟩ := passes.split
  have number : inner.number = before.hub.begun := by
    obtain ⟨hub, message, scripts, todo, tours, rfl, rfl⟩ := exists_of_beginning begins
    rfl
  have began := passes.mem_beginning_of_lt firstBegan (number ▸ sooner)
  have ended : outer.number ∉ before.numbers := by
    intro waits
    obtain ⟨failed, within⟩ := passes.exists_beginsWithin begins began waits
    exact apart failed within
  refine filter_isOfEither_of_split ?_ ?_
  · rw [copiesTo, reached.attempts_eq_nil_of_beginning begins, List.filter_nil]
  · rw [copiesTo, passes.attempts_eq_nil_of_over began ended, List.filter_nil]

/-! ## Broadcasts that begin within others -/

section

variable {entry : ClientId × ChannelId} {channel : ChannelId}
  (passes : Passes (start .fresh steps) (earlier ++ before :: later) moment)
  (begins : before.beginning = some inner) (began : outer ∈ earlier.filterMap beginning)
  (single : copiesTo channel outer (earlier ++ before :: later) = [outer.copy entry])

include passes begins began single

theorem outer_first
    (come : (come before.tours outer).filter (fun entry => entry.2 = channel) = [entry]) :
    (sentTo channel (earlier ++ before :: later)).filter (isOfEither outer inner) =
      copiesTo channel outer (earlier ++ before :: later) ++
        copiesTo channel inner (earlier ++ before :: later) := by
  obtain ⟨reached, _⟩ := passes.split
  have sent := reached.copiesTo_attempted began channel
  rw [come] at sent
  rw [copiesTo_append] at single
  refine filter_isOfEither_of_split ?_ ?_
  · rw [copiesTo, reached.attempts_eq_nil_of_beginning begins, List.filter_nil]
  · rcases List.append_eq_singleton_iff.mp single with ⟨unsent, _⟩ | ⟨_, nothing⟩
    · rw [unsent] at sent
      cases sent
    · exact nothing

/-- The outer broadcast comes to this channel when the inner one is over. -/
theorem inner_first (waits : outer.number ∈ before.numbers)
    (ahead : (come before.tours outer).filter (fun entry => entry.2 = channel) = []) :
    (sentTo channel (earlier ++ before :: later)).filter (isOfEither outer inner) =
      copiesTo channel inner (earlier ++ before :: later) ++
        copiesTo channel outer (earlier ++ before :: later) := by
  obtain ⟨reached, _⟩ := passes.split
  have unsent : copiesTo channel outer earlier = [] := by
    have sent := reached.copiesTo_attempted began channel
    rw [ahead] at sent
    exact List.map_eq_nil_iff.mp sent
  rw [copiesTo_append, unsent, List.nil_append] at single
  obtain ⟨between, middle, last, split, found, waiting⟩ := exists_due_of_single single
  cases between with
  | nil =>
      cases split
      obtain ⟨hub, message, scripts, todo, tours, rfl, _⟩ := exists_of_beginning begins
      cases found
  | cons head between =>
      obtain ⟨rfl, -⟩ := List.cons.inj split
      rw [split, ← List.append_assoc] at passes ⊢
      obtain ⟨reachedMiddle, _⟩ := passes.split
      have innerBegan : inner ∈ (earlier ++ before :: between).filterMap beginning :=
        List.mem_filterMap.mpr ⟨before, List.mem_append_right _ List.mem_cons_self, begins⟩
      have ended := reachedMiddle.over_of_innermost begins waits
        (.inr (numbers_of_due found rfl))
      rw [filter_isOfEither_comm]
      refine filter_isOfEither_of_split ?_ ?_
      · rw [copiesTo_append, unsent, waiting, List.nil_append]
      · rw [copiesTo, passes.attempts_eq_nil_of_over innerBegan ended, List.filter_nil]

end

theorem BeginsWithin.order {missed id : ClientId} {lost channel : ChannelId}
    (within : BeginsWithin passed outer inner (missed, lost))
    (passes : Passes (start .fresh steps) passed moment) (ended : outer.number ∉ moment.numbers)
    (live : moment.hub.isLive channel = true)
    (outside : outer.roster.filter (fun entry => entry.2 = channel) = [(id, channel)])
    (inside : inner.roster.filter (fun entry => entry.2 = channel) = [(id, channel)]) :
    id ≠ missed ∧
    (id < missed → (sentTo channel passed).filter (isOfEither outer inner) =
      [outer.copy (id, channel), inner.copy (id, channel)]) ∧
    (missed < id → (sentTo channel passed).filter (isOfEither outer inner) =
      [inner.copy (id, channel), outer.copy (id, channel)]) := by
  obtain ⟨earlier, before, later, rfl, begins, began, waits, dropped, visited, ahead, turns,
    roster⟩ := within.exists_split passes
  have outerBegan := mem_beginning_append began (before :: later)
  have innerBegan : inner ∈ (earlier ++ before :: later).filterMap beginning :=
    List.mem_filterMap.mpr ⟨before, List.mem_append_right _ List.mem_cons_self, begins⟩
  have innerOver := passes.over_of_innermost begins waits (.inl ended)
  have outerCopy := passes.copiesTo_of_once outerBegan ended live outside
  have innerCopy := passes.copiesTo_of_once innerBegan innerOver live inside
  have ascending := ascending_of_mem_beginning outerBegan
  rw [roster] at outside ascending
  refine ⟨?_, fun below => ?_, fun above => ?_⟩
  · rintro rfl
    have listed : (id, channel) ∈
        (visited ++ (id, lost) :: ahead).filter fun entry => entry.2 = channel := by
      rw [outside]
      exact List.mem_singleton_self _
    have found : Roster.find? (visited ++ (id, lost) :: ahead) id = some channel :=
      Roster.find?_of_mem ascending (List.mem_filter.mp listed).1
    have failed : Roster.find? (visited ++ (id, lost) :: ahead) id = some lost :=
      Roster.find?_of_mem ascending (List.mem_append_right _ List.mem_cons_self)
    obtain ⟨_, next, move, rest⟩ := passes.split
    cases found.symm.trans failed
    have after : Reaches before moment := .head move rest.reaches
    have accounted := (OccursIn.sound passes.reaches).accounted
    exact accounted.undropped_of_isLive live (after.history_prefix.subset dropped)
  · have come := ascending.filter_visited_of_lt outside below
    rw [← turns] at come
    rw [outer_first passes begins began outerCopy come, outerCopy, innerCopy]
    rfl
  · have come := ascending.filter_visited_of_gt outside above
    rw [← turns] at come
    rw [inner_first passes begins began outerCopy waits come, outerCopy, innerCopy]
    rfl

end

/-- Where a broadcast begins while another waits at an entry whose delivery failed, a client
that both have once, under one number, and that is live when the outer one is over has got one
copy of each: the outer one first if its number is below the failed one, the inner one first if
it is above. Of two broadcasts neither of which is within the other, every channel is sent all
copies of the earlier one before any of the later one. -/
theorem copies_in_order_of_entries (passes : Passes (start .fresh steps) passed moment) :
    Reaches moment (finished (Step.runAll steps .fresh).1) ∧
    (passed.filterMap beginning).map Sending.number = List.range moment.hub.begun ∧
    (∀ channel, moment.hub.isLive channel = true →
      passed.flatMap (taken channel) ++ moment.hub.queueOf channel =
        (sentTo channel passed).map Delivery.text) ∧
    (∀ outer inner missed lost id channel, BeginsWithin passed outer inner (missed, lost) →
      outer.number ∉ moment.numbers → moment.hub.isLive channel = true →
      outer.roster.filter (fun entry => entry.2 = channel) = [(id, channel)] →
      inner.roster.filter (fun entry => entry.2 = channel) = [(id, channel)] →
        id ≠ missed ∧
        (id < missed → (sentTo channel passed).filter (isOfEither outer inner) =
          [outer.copy (id, channel), inner.copy (id, channel)]) ∧
        (missed < id → (sentTo channel passed).filter (isOfEither outer inner) =
          [inner.copy (id, channel), outer.copy (id, channel)])) ∧
    ∀ first ∈ passed.filterMap beginning, ∀ second ∈ passed.filterMap beginning,
      first.number < second.number → (∀ failed, ¬ BeginsWithin passed first second failed) →
        ∀ channel, (sentTo channel passed).filter (isOfEither first second) =
          copiesTo channel first passed ++ copiesTo channel second passed := by
  refine ⟨OccursIn.reaches_finished passes.reaches, ?_, fun channel => passes.sentTo_texts, ?_, ?_⟩
  · rw [← passes.sendings_eq]
    exact (OccursIn.ledger passes.reaches).numbers
  · intro outer inner missed lost id channel within ended live outside inside
    exact within.order passes ended live outside inside
  · intro first firstBegan second secondBegan sooner apart
    exact passes.filter_isOfEither_of_apart firstBegan secondBegan sooner apart

/-- The failure of the second of three clients lets another broadcast in: the first client has
it after the one that it interrupts, the third has it before. -/
theorem inner_copy_overtakes_beyond_failure :
    ∃ (passed : List Moment) (moment : Moment) (outer inner : Sending),
      Passes
        (start .fresh
          [.join "first", .join "second", .join "third", .dropReceiver "second",
            .broadcast (.line "outer") [(0, [.broadcast (.line "inner") []])]])
        passed moment ∧
      outer.message = .line "outer" ∧ inner.message = .line "inner" ∧
      BeginsWithin passed outer inner (2, 1) ∧
      (sentTo 0 passed).filter (isOfEither outer inner) =
        [outer.copy (1, 0), inner.copy (1, 0)] ∧
      (sentTo 2 passed).filter (isOfEither outer inner) =
        [inner.copy (3, 2), outer.copy (3, 2)] := by
  have passes : Passes
      (start .fresh
        [.join "first", .join "second", .join "third", .dropReceiver "second",
          .broadcast (.line "outer") [(0, [.broadcast (.line "inner") []])]]) _ _ :=
    .move (.move (.move (.move (.move (.move (.move (.move (.move (.move (.move (.move (.move
      (.move (.move (.move .here
      (.act rfl)) (.act rfl)) (.act rfl)) (.act rfl)) .begin) (.reach rfl rfl rfl))
      (.miss rfl rfl rfl)) .begin) (.reach rfl rfl rfl)) (.miss rfl rfl rfl)) (.remove rfl))
      (.reach rfl rfl rfl)) (.finish rfl rfl)) (.remove rfl)) (.reach rfl rfl rfl))
      (.finish rfl rfl)
  obtain ⟨_, _, _, nested, _⟩ := copies_in_order_of_entries passes
  let outer : Sending := ⟨0, .line "outer", [(1, 0), (2, 1), (3, 2)]⟩
  let inner : Sending := ⟨1, .line "inner", [(1, 0), (2, 1), (3, 2)]⟩
  suffices within : BeginsWithin _ outer inner (2, 1) by
    obtain ⟨_, below, _⟩ := nested outer inner 2 1 1 0 within nofun rfl rfl rfl
    obtain ⟨_, _, above⟩ := nested outer inner 2 1 3 2 within nofun rfl rfl rfl
    exact ⟨_, _, outer, inner, passes, rfl, rfl, within, below (by decide), above (by decide)⟩
  exact ⟨_, List.mem_of_getElem? (show _[7]? = some _ from rfl), rfl, _, List.mem_cons_self,
    rfl, rfl⟩

end Moment

end PipeCast.Hub
