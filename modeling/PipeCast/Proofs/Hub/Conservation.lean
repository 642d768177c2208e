import PipeCast.Proofs.Hub.Course
import PipeCast.Proofs.Hub.Simulation

/-!
# Queues lose nothing

What has been taken from a queue and what waits in it are together what was
delivered to it, in the order of the deliveries. A broadcast has delivered to a
channel once for each number under which its roster holds the channel and whose
turn has come, so a channel that joined later has nothing of it.
-/

set_option autoImplicit false

namespace PipeCast.Hub.Moment

variable {steps : List Step} {passed : List Moment} {moment : Moment}

theorem Ledger.come_prefix (ledger : moment.Ledger) {sending : Sending}
    (began : sending ∈ sendings moment.hub.history) :
    come moment.tours sending <+: sending.roster := by
  unfold come
  cases found : moment.tours.find? fun tour => tour.number = sending.number with
  | none => exact List.prefix_rfl
  | some tour =>
      have same : tour.number = sending.number := by simpa using List.find?_some found
      have present := ledger.tours tour (List.mem_of_find?_eq_some found)
      rw [ledger.eq_of_number_eq began present same.symm]
      exact List.prefix_append _ _

theorem Ledger.exists_sending (ledger : moment.Ledger) (since : Since .fresh moment)
    {delivery : Delivery} (attempted : delivery ∈ deliveries moment.hub.history) :
    delivery.cause = .direct ∨
      ∃ sending ∈ sendings moment.hub.history, delivery.cause.number? = some sending.number := by
  obtain ⟨event, member, found⟩ := List.mem_filterMap.mp attempted
  obtain ⟨events, history, within⟩ := since.follows.history
  rw [history_fresh, List.nil_append] at history
  rw [history] at member
  cases cause : delivery.cause with
  | direct => exact .inl rfl
  | broadcast number id =>
      have own : event.number? = some number := by
        cases event <;> cases found
        exact congrArg Cause.number? cause
      have below := List.mem_range.mpr (within event member number own).2
      rw [← ledger.numbers] at below
      obtain ⟨sending, began, same⟩ := List.mem_map.mp below
      exact .inr ⟨sending, began, congrArg some same.symm⟩

theorem Ledger.copies_to (ledger : moment.Ledger) {sending : Sending}
    (began : sending ∈ sendings moment.hub.history) (channel : ChannelId) :
    ((copies sending.number moment.hub.history).filter fun delivery =>
        delivery.channel = channel).map Delivery.attempted =
      ((come moment.tours sending).filter fun entry => entry.2 = channel).map sending.copy := by
  calc ((copies sending.number moment.hub.history).filter fun delivery =>
        delivery.channel = channel).map Delivery.attempted
      = ((copies sending.number moment.hub.history).map Delivery.attempted).filter
          fun delivery => delivery.channel = channel := by rw [List.filter_map]; rfl
    _ = ((come moment.tours sending).map sending.copy).filter
          fun delivery => delivery.channel = channel := by rw [ledger.delivered sending began]
    _ = ((come moment.tours sending).filter fun entry => entry.2 = channel).map
          sending.copy := by rw [List.filter_map]; rfl

theorem Sound.succeeded (sound : moment.Sound) {delivery : Delivery}
    (attempted : delivery ∈ deliveries moment.hub.history)
    (live : moment.hub.isLive delivery.channel = true) : delivery.succeeded = true := by
  rw [← Bool.not_eq_false]
  intro fails
  have dropped := sound.accounted.failed delivery attempted fails
  have dead := ((sound.accounted.dropped delivery.channel).mp dropped).2
  rw [live] at dead
  cases dead

/-- At every moment on the way to the end of a run, the queue of a channel whose receiver
exists holds what was delivered to it and not yet taken. Of a broadcast it was delivered
one copy for each entry of its roster that leads to the channel and whose turn has come;
every other delivery was direct. -/
theorem queue_holds_what_was_delivered (passes : Passes (start .fresh steps) passed moment)
    (channel : ChannelId) (live : moment.hub.isLive channel = true) :
    let received := (passed.filterMap due).filter fun delivery => delivery.channel = channel
    let began := passed.filterMap beginning
    Reaches moment (finished (Step.runAll steps .fresh).1) ∧
    passed.flatMap (taken channel) ++ moment.hub.queueOf channel = received.map Delivery.text ∧
    (∀ delivery ∈ received, delivery.succeeded = true ∧
      (delivery.cause = .direct ∨
        ∃ sending ∈ began, delivery.cause.number? = some sending.number)) ∧
    began.map Sending.number = List.range moment.hub.begun ∧
    ∀ sending ∈ began,
      come moment.tours sending <+: sending.roster ∧
      received.filter (fun delivery => delivery.cause.number? = some sending.number) =
        ((come moment.tours sending).filter fun entry => entry.2 = channel).map sending.copy := by
  intro received began
  have occurs : moment.OccursIn steps := passes.reaches
  have sound := occurs.sound
  have ledger := occurs.ledger
  obtain ⟨delivered, drained, begun⟩ := passes.told
  have undropped : .receiverDropped channel ∉ moment.hub.history := by
    intro dropped
    have dead := ((sound.accounted.dropped channel).mp dropped).2
    rw [live] at dead
    cases dead
  have toldDeliveries : deliveries moment.hub.history = passed.filterMap due := delivered
  have toldSendings : sendings moment.hub.history = began := begun
  have toldDrained : drainedFrom channel moment.hub.history = passed.flatMap (taken channel) :=
    drained channel
  have toldReceived : deliveriesTo channel moment.hub.history = received :=
    congrArg (List.filter _) toldDeliveries
  have succeeds : ∀ delivery ∈ received, delivery.succeeded = true := by
    intro delivery member
    obtain ⟨attempted, here⟩ := List.mem_filter.mp member
    rw [← toldDeliveries] at attempted
    have same : delivery.channel = channel := of_decide_eq_true here
    exact sound.succeeded attempted (same ▸ live)
  refine ⟨occurs.reaches_finished, ?_, ?_, toldSendings ▸ ledger.numbers, ?_⟩
  · rw [← toldReceived, ← toldDrained]
    exact sound.accounted.queued channel undropped
  · intro delivery member
    rw [← toldReceived] at member
    refine ⟨succeeds delivery (toldReceived ▸ member), ?_⟩
    exact toldSendings ▸ ledger.exists_sending (Reaches.since occurs) (List.mem_filter.mp member).1
  · intro sending member
    rw [← toldSendings] at member
    refine ⟨ledger.come_prefix member, ?_⟩
    have copied : received.filter (fun delivery => delivery.cause.number? = some sending.number) =
        (copies sending.number moment.hub.history).filter fun delivery =>
          delivery.channel = channel := by
      rw [copies, toldDeliveries, List.filter_comm]
    have unchanged : ∀ delivery ∈ received.filter fun delivery =>
        delivery.cause.number? = some sending.number, delivery.attempted = delivery := by
      intro delivery chosen
      have succeeded := succeeds delivery (List.mem_filter.mp chosen).1
      rw [Delivery.attempted, ← succeeded]
    rw [← ledger.copies_to member channel, ← copied, List.map_congr_left unchanged, List.map_id']

/-- A client that drains its channel in between misses nothing and has nothing of what
was sent before it joined. -/
theorem late_client_holds_its_share :
    ∃ (passed : List Moment) (moment : Moment),
      Passes
        (start .fresh
          [.join "early", .broadcast (.line "one") [], .join "late", .broadcast (.line "two") [],
            .drain "late", .deliver "late" "three"])
        passed moment ∧
      moment.hub.isLive 1 = true ∧
      passed.flatMap (taken 1) = ["two"] ∧
      ((passed.filterMap due).filter fun delivery => delivery.channel = 1).map Delivery.text =
        ["two", "three"] := by
  have passes : Passes
      (start .fresh
        [.join "early", .broadcast (.line "one") [], .join "late", .broadcast (.line "two") [],
          .drain "late", .deliver "late" "three"]) _ _ :=
    .move (.move (.move (.move (.move (.move (.move (.move (.move (.move (.move .here
      (.act rfl)) .begin) (.reach rfl rfl rfl)) (.finish rfl rfl))
      (.act rfl)) .begin) (.reach rfl rfl rfl)) (.reach rfl rfl rfl)) (.finish rfl rfl))
      (.act rfl)) (.act rfl)
  obtain ⟨_, conserved, _⟩ := queue_holds_what_was_delivered passes 1 rfl
  exact ⟨_, _, passes, rfl, rfl, conserved.symm.trans rfl⟩

end PipeCast.Hub.Moment
