import PipeCast.Proofs.Hub.Deliveries
import PipeCast.Proofs.Hub.Growth

/-!
# What holds throughout a run

At every moment of a run from a fresh hub the history accounts for all queues, the
rosters under way are those of the broadcasts under way, and a broadcast that is
about to remove an entry has found its receiver dropped. A receiver never comes
back, so this stays true whatever is done before the removal.
-/

set_option autoImplicit false

namespace PipeCast.Hub.Moment

/-- The state of a run as moves leave it. -/
structure Sound (moment : Moment) : Prop where
  accounted : moment.hub.Accounted
  underway : moment.hub.underway = moment.tours.map Tour.roster
  failed : ∀ tour ∈ moment.tours, ∀ entry, tour.failed = some entry →
    .receiverDropped entry.2 ∈ moment.hub.history

namespace Sound

variable {hub : Hub} {todo : List Step} {tour : Tour} {tours : List Tour}

theorem lt_size_of_mem_roster (sound : Sound ⟨hub, todo, tour :: tours⟩)
    {entry : ClientId × ChannelId} (member : entry ∈ tour.roster) :
    entry.2 < hub.channels.size := by
  refine sound.accounted.underway tour.roster ?_ entry member
  rw [sound.underway]
  exact List.mem_cons_self

theorem next {moment next : Moment} (sound : Sound moment) (move : Next moment next) :
    Sound next := by
  have kept {tour : Tour} (member : tour ∈ moment.tours) {entry : ClientId × ChannelId}
      (failed : tour.failed = some entry) : .receiverDropped entry.2 ∈ next.hub.history :=
    move.history_prefix.subset (sound.failed tour member entry failed)
  cases move with
  | @act hub step todo tours plain =>
      refine ⟨Accounted.isKept.run sound.accounted plain, ?_, fun _ member _ => kept member⟩
      exact (run_beside plain hub).underway.trans sound.underway
  | read => exact ⟨sound.accounted, sound.underway, sound.failed⟩
  | @begin hub message scripts todo tours =>
      refine ⟨sound.accounted.begin message, congrArg _ sound.underway,
        List.forall_mem_cons.mpr ⟨?_, fun _ old _ => kept old⟩⟩
      intro entry failed
      cases failed
  | @reach hub tour entry ahead tours idle due live =>
      have present := sound.lt_size_of_mem_roster (tour.mem_roster due)
      refine ⟨sound.accounted.deliver _ _ present, ?_, List.forall_mem_cons.mpr
        ⟨?_, fun _ other _ => kept (List.mem_cons_of_mem _ other)⟩⟩
      · rw [underway_deliver, List.map_cons, tour.roster_advance due]
        exact sound.underway
      · intro entry failed
        exact kept List.mem_cons_self failed
  | @miss hub tour entry ahead tours idle due dead =>
      have present := sound.lt_size_of_mem_roster (tour.mem_roster due)
      refine ⟨sound.accounted.deliver _ _ present, ?_, List.forall_mem_cons.mpr
        ⟨?_, fun _ other _ => kept (List.mem_cons_of_mem _ other)⟩⟩
      · rw [underway_deliver, List.map_cons]
        exact sound.underway.trans (congrArg (· :: _) (tour.roster_advance due).symm)
      · intro found failed
        cases failed
        rw [history_deliver]
        exact List.mem_append_left _ ((sound.accounted.dropped _).mpr ⟨present, dead⟩)
  | @remove hub tour entry tours failed =>
      refine ⟨sound.accounted.withdraw _ _ _, sound.underway, List.forall_mem_cons.mpr
        ⟨?_, fun _ other _ => kept (List.mem_cons_of_mem _ other)⟩⟩
      intro found failed
      cases failed
  | @finish hub tour tours idle done =>
      refine ⟨sound.accounted.finish _ _, ?_, ?_⟩
      · exact congrArg List.tail sound.underway
      · exact fun _ member _ => kept (List.mem_cons_of_mem _ member)

end Sound

theorem OccursIn.sound {moment : Moment} {steps : List Step} (occurs : moment.OccursIn steps) :
    moment.Sound := by
  induction occurs with
  | refl =>
      refine ⟨.fresh, rfl, ?_⟩
      intro tour member
      cases member
  | tail _ move ih => exact ih.next move

end PipeCast.Hub.Moment
