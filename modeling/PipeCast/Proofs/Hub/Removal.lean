import PipeCast.Proofs.Hub.Simulation
import PipeCast.Proofs.Hub.Sound

/-!
# Whom a broadcast removes

Between a failed delivery and the removal that follows it the registry may change in
any way. What a broadcast removes is guarded by the identity of the channel, and a
receiver that has been dropped never comes back. So nobody is removed whose receiver
exists, whoever has been registered under the same number meanwhile.
-/

set_option autoImplicit false

namespace PipeCast.Hub.Moment

/-- The channel registered under a number. -/
def registered? (moment : Moment) (id : ClientId) : Option ChannelId :=
  moment.hub.registry.roster.find? id

/-- Whether the next move is made by a broadcast, or by a round of the reader. -/
def isBroadcasting (moment : Moment) : Bool :=
  match moment.todo with
  | [] => true
  | step :: _ => !step.isPlain

theorem Next.registry_eq {moment next : Moment} (move : Next moment next)
    (busy : moment.isBroadcasting = true) :
    next.hub.registry = moment.hub.registry ∨
      ∃ hub tour outer entry, moment = ⟨hub, [], tour :: outer⟩ ∧ tour.failed = some entry ∧
        next.hub.registry = (hub.registry.withdraw entry.1 entry.2).1 := by
  cases move with
  | act plain => simp [isBroadcasting, plain] at busy
  | read | begin | finish => exact .inl rfl
  | reach | miss => exact .inl (registry_deliver ..)
  | @remove hub tour entry tours failed =>
      exact .inr ⟨hub, tour, tours, entry, rfl, failed, rfl⟩

/-- On the way to the end of a run a broadcast removes an entry only if the receiver of
its very channel has been dropped. After the removal that follows a failed delivery, the
entry that failed is gone, a newer one under its number stays, and nothing else has
changed. -/
theorem broadcast_removes_only_dropped {steps : List Step} {moment next : Moment}
    (occurs : moment.OccursIn steps) (move : Next moment next)
    (busy : moment.isBroadcasting = true) :
    Reaches next (finished (Step.runAll steps .fresh).1) ∧
    (∀ id channel, moment.registered? id = some channel → next.registered? id ≠ some channel →
      .receiverDropped channel ∈ moment.hub.history ∧ moment.hub.isLive channel = false) ∧
    (∀ tour outer id channel, moment.todo = [] → moment.tours = tour :: outer →
      tour.failed = some (id, channel) →
        next.registered? id ≠ some channel ∧
        (∀ other, other ≠ id → next.registered? other = moment.registered? other) ∧
        (moment.registered? id ≠ some channel → next.hub.registry = moment.hub.registry)) := by
  have sound := occurs.sound
  refine ⟨OccursIn.reaches_finished (.tail occurs move), ?_, ?_⟩
  · intro id channel before after
    rcases move.registry_eq busy with same | ⟨hub, tour, outer, entry, rfl, failed, changed⟩
    · exact absurd (by rw [registered?, same]; exact before) after
    · have dropped := sound.failed tour List.mem_cons_self entry failed
      rw [registered?, changed, Registry.find?_withdraw] at after
      split at after
      · rename_i removed
        rw [registered?, removed.1, removed.2] at before
        cases before
        exact ⟨dropped, ((sound.accounted.dropped entry.2).mp dropped).2⟩
      · exact absurd before after
  · intro tour outer id channel idle inner failed
    cases move with
    | act | read | begin => cases idle
    | reach nothing | miss nothing | finish nothing =>
        cases inner
        rw [failed] at nothing
        cases nothing
    | @remove hub found entry tours same =>
        cases inner
        cases failed.symm.trans same
        refine ⟨?_, ?_, ?_⟩
        · intro remains
          rw [registered?] at remains
          simp only [withdraw, record, Registry.find?_withdraw] at remains
          split at remains
          · cases remains
          · rename_i absent
            exact absent ⟨trivial, remains⟩
        · intro other different
          simp [registered?, withdraw, record, Registry.find?_withdraw, different]
        · intro replaced
          have kept : hub.registry.roster.find? id ≠ some channel := replaced
          simp [withdraw, record, Registry.withdraw, kept]

/-- A client that registers under the number of one that has left stays registered when
the broadcast that missed the old one cleans up. -/
theorem removal_spares_newcomer :
    ∃ moment next : Moment,
      moment.OccursIn
        [.join "old", .join "other", .dropReceiver "old",
          .broadcast (.line "hello") [(0, [.openChannel "new", .register 1 "new"])]] ∧
      Next moment next ∧ moment.isBroadcasting = true ∧
      moment.tours.map Tour.failed = [some (1, 0)] ∧
      next.registered? 1 = some 2 ∧ next.registered? 2 = some 1 := by
  have occurs : OccursIn _
      [.join "old", .join "other", .dropReceiver "old",
        .broadcast (.line "hello") [(0, [.openChannel "new", .register 1 "new"])]] :=
    .head (.act rfl) (.head (.act rfl) (.head (.act rfl) (.head .begin
      (.head (.miss rfl rfl rfl) (.head (.act rfl) (.head (.act rfl) .refl))))))
  obtain ⟨_, others, newer⟩ :=
    (broadcast_removes_only_dropped occurs (.remove rfl) rfl).2.2 _ _ 1 0 rfl rfl rfl
  refine ⟨_, _, occurs, .remove rfl, rfl, rfl, ?_, ?_⟩
  · exact (congrArg (fun registry => registry.roster.find? 1) (newer (by decide))).trans rfl
  · exact (others 2 (by decide)).trans rfl

end PipeCast.Hub.Moment
