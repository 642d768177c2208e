import Mathlib.Algebra.GroupWithZero.Nat
import PipeCast.Proofs.Hub.Entries
import PipeCast.Proofs.Hub.Removal
import PipeCast.Proofs.Hub.Reports

/-!
# How many are registered

Every registration under a free number adds one client. Every client that is no longer
registered has been removed exactly once: by its number, by a removal by number and channel
that says so, or by a broadcast that counts it among those it dropped. Other broadcasts and
other removals may have found the same client gone; they count nothing.
-/

set_option autoImplicit false

namespace PipeCast.Hub

namespace Roster

def Operation.adds (roster : Roster) : Operation → Bool
  | .register id _ => (roster.find? id).isNone
  | .unregister _ | .withdraw _ _ => false

def Operation.takes (roster : Roster) : Operation → Bool
  | .register _ _ => false
  | .unregister id => (roster.find? id).isSome
  | .withdraw id channel => roster.find? id = some channel

theorem length_apply {roster : Roster} (ascending : roster.IsAscending) (operation : Operation) :
    (roster.apply operation).length + (operation.takes roster).toNat =
      roster.length + (operation.adds roster).toNat := by
  cases operation with
  | register id channel => exact length_insert ascending id channel
  | unregister id => exact length_erase ascending id
  | withdraw id channel =>
      have erased := length_erase ascending id
      rw [apply, Operation.takes, Operation.adds]
      by_cases present : roster.find? id = some channel
      · rw [present] at erased
        simpa [present] using erased
      · simp [present]

end Roster

namespace Tour

/-- A broadcast drops at most those it reports gone, and reports gone at most those whose turn
has come. -/
structure Measured (tour : Tour) : Prop where
  dropped : tour.dropped ≤ tour.gone.length
  gone : tour.gone.length + tour.failed.toList.length ≤ tour.visited.length

theorem Measured.advance {tour : Tour} (measured : tour.Measured) (idle : tour.failed = none)
    (entry : ClientId × ChannelId) (ahead : Roster) (failed : Option (ClientId × ChannelId)) :
    Measured { tour.advance entry ahead with failed := failed } := by
  have before := measured.gone
  rw [idle] at before
  refine ⟨measured.dropped, ?_⟩
  cases failed with
  | none => simpa [Tour.advance] using Nat.le_succ_of_le before
  | some found => simpa [Tour.advance] using before

theorem Measured.settle {tour : Tour} (measured : tour.Measured)
    {entry : ClientId × ChannelId} (failed : tour.failed = some entry) (removed : Bool) :
    Measured (tour.settle entry removed) := by
  obtain ⟨dropped, gone⟩ := measured
  rw [failed] at gone
  refine ⟨?_, gone⟩
  have counted : removed.toNat ≤ 1 := Bool.toNat_le removed
  simp only [Tour.settle, List.length_cons]
  omega

end Tour

namespace Moment

/-- The next move registers somebody under a number under which nobody is registered. -/
def registersNew (moment : Moment) : Bool :=
  match moment.operation? with
  | some (.register id _) => (moment.registered? id).isNone
  | _ => false

/-- The next move is a step that unregisters a number under which somebody is registered. -/
def unregistersKnown (moment : Moment) : Bool :=
  match moment.operation? with
  | some (.unregister id) => (moment.registered? id).isSome
  | _ => false

/-- The next move is a step that asks for a removal by number and channel and is told that
there was one. -/
def withdrawsOne : Moment → Bool
  | ⟨hub, .withdraw id name :: _, _⟩ =>
      match ((Step.withdraw id name).run hub).2 with
      | .truth removed => removed
      | _ => false
  | _ => false

/-- How many the broadcasts under way have dropped so far. -/
def droppedSoFar (moment : Moment) : Nat := (moment.tours.map Tour.dropped).sum

theorem withdraw_snd (hub : Hub) (cause : Cause) (id : ClientId) (channel : ChannelId) :
    (hub.withdraw cause id channel).2 =
      Roster.Operation.takes hub.registry.roster (.withdraw id channel) := by
  by_cases present : hub.registry.roster.find? id = some channel
  · simp [withdraw, Registry.withdraw, Roster.Operation.takes, present]
  · simp [withdraw, Registry.withdraw, Roster.Operation.takes, present]

theorem withdrawsOne_step (hub : Hub) (step : Step) (todo : List Step) (tours : List Tour) :
    withdrawsOne ⟨hub, step :: todo, tours⟩ =
      match operation? ⟨hub, step :: todo, tours⟩ with
      | some (.withdraw id channel) =>
          Roster.Operation.takes hub.registry.roster (.withdraw id channel)
      | _ => false := by
  cases step with
  | withdraw id name =>
      simp only [withdrawsOne, operation?, Step.run, onHandle]
      cases found : hub.channelOf? (.named name) with
      | none => rfl
      | some channel => exact withdraw_snd hub .direct id channel
  | register id name =>
      simp only [withdrawsOne, operation?]
      cases hub.channelOf? (.named name) <;> rfl
  | _ => rfl

theorem run_balance {step : Step} (plain : step.isPlain = true) (hub : Hub) (todo : List Step)
    (tours : List Tour) :
    (step.run hub).1.registry.size + (unregistersKnown ⟨hub, step :: todo, tours⟩).toNat +
        (withdrawsOne ⟨hub, step :: todo, tours⟩).toNat =
      hub.registry.size + (registersNew ⟨hub, step :: todo, tours⟩).toNat := by
  rw [withdrawsOne_step, Registry.size, roster_run plain hub todo tours, unregistersKnown,
    registersNew]
  cases operation? ⟨hub, step :: todo, tours⟩ with
  | none => rfl
  | some operation =>
      have changed := Roster.length_apply hub.registry.ascending operation
      cases operation <;> exact changed

theorem nothing_asked (hub : Hub) (tour : Tour) (tours : List Tour) :
    registersNew ⟨hub, [], tour :: tours⟩ = false ∧
      unregistersKnown ⟨hub, [], tour :: tours⟩ = false ∧
      withdrawsOne ⟨hub, [], tour :: tours⟩ = false := by
  refine ⟨?_, ?_, rfl⟩
  · cases failed : tour.failed <;> simp [registersNew, operation?, failed]
  · cases failed : tour.failed <;> simp [unregistersKnown, operation?, failed]

theorem Next.balance {moment next : Moment} (move : Next moment next) :
    next.hub.registry.size + moment.unregistersKnown.toNat + moment.withdrawsOne.toNat +
        (moment.concluded.toList.map Report.dropped).sum + next.droppedSoFar =
      moment.hub.registry.size + moment.registersNew.toNat + moment.droppedSoFar := by
  cases move with
  | @act hub step todo tours plain =>
      have balance := run_balance plain hub todo tours
      simp only [concluded, droppedSoFar, Option.toList_none, List.map_nil, List.sum_nil]
      omega
  | read => rfl
  | begin => simp [registersNew, unregistersKnown, withdrawsOne, operation?, concluded,
      droppedSoFar, Hub.begin, record, Tour.start]
  | @reach hub tour entry ahead tours idle due | @miss hub tour entry ahead tours idle due =>
      obtain ⟨new, known, one⟩ := nothing_asked hub tour tours
      simp [new, known, one, concluded_of_due due, droppedSoFar, registry_deliver, Tour.advance]
  | @remove hub tour entry tours failed =>
      obtain ⟨new, known, one⟩ := nothing_asked hub tour tours
      have changed := Roster.length_apply hub.registry.ascending (.withdraw entry.1 entry.2)
      have smaller : (hub.withdraw (tour.cause entry) entry.1 entry.2).1.registry.size +
          (hub.withdraw (tour.cause entry) entry.1 entry.2).2.toNat = hub.registry.size := by
        rw [Registry.size, roster_withdraw, withdraw_snd]
        exact changed
      simp only [new, known, one, concluded_of_failed failed, droppedSoFar, Tour.settle,
        List.map_cons, List.sum_cons, Option.toList_none, List.map_nil, List.sum_nil,
        Bool.toNat_false]
      omega
  | @finish hub tour tours idle done =>
      obtain ⟨new, known, one⟩ := nothing_asked hub tour tours
      simp [new, known, one, concluded_of_done idle done, droppedSoFar, Hub.finish, record,
        Tour.report, Nat.add_assoc]

theorem Passes.balance {first moment : Moment} {passed : List Moment}
    (passes : Passes first passed moment) :
    moment.hub.registry.size + passed.countP unregistersKnown + passed.countP withdrawsOne +
        ((passed.filterMap concluded).map Report.dropped).sum + moment.droppedSoFar =
      first.hub.registry.size + passed.countP registersNew + first.droppedSoFar := by
  induction passes with
  | here => simp
  | @move passed moment next _ move ih =>
      have balance := move.balance
      have counted (asked : Moment → Bool) :
          (passed ++ [moment]).countP asked = passed.countP asked + (asked moment).toNat := by
        cases found : asked moment <;> simp [found]
      rw [filterMap_concat, counted, counted, counted, List.map_append, List.sum_append]
      omega

/-! ## What a broadcast may count -/

theorem Next.measured {moment next : Moment} (move : Next moment next)
    (measured : ∀ tour ∈ moment.tours, tour.Measured) : ∀ tour ∈ next.tours, tour.Measured := by
  cases move with
  | act | read => exact measured
  | begin => exact List.forall_mem_cons.mpr ⟨⟨Nat.le_refl _, Nat.le_refl _⟩, measured⟩
  | @reach hub tour entry ahead tours idle =>
      obtain ⟨inner, outer⟩ := List.forall_mem_cons.mp measured
      exact List.forall_mem_cons.mpr ⟨inner.advance idle entry ahead tour.failed, outer⟩
  | @miss hub tour entry ahead tours idle =>
      obtain ⟨inner, outer⟩ := List.forall_mem_cons.mp measured
      exact List.forall_mem_cons.mpr ⟨inner.advance idle entry ahead (some entry), outer⟩
  | @remove hub tour entry tours failed =>
      obtain ⟨inner, outer⟩ := List.forall_mem_cons.mp measured
      exact List.forall_mem_cons.mpr ⟨inner.settle failed _, outer⟩
  | finish => exact (List.forall_mem_cons.mp measured).2

theorem exists_tour_of_concluded {moment : Moment} {report : Report}
    (found : moment.concluded = some report) :
    ∃ tour ∈ moment.tours, tour.failed = none ∧ tour.ahead = [] ∧ tour.report = report := by
  obtain ⟨hub, todo, tours⟩ := moment
  cases todo with
  | cons step rest => cases found
  | nil =>
      cases tours with
      | nil => cases found
      | cons tour outer =>
          rcases tour.turn_cases with ⟨entry, failed⟩ | ⟨idle, done⟩ | ⟨entry, ahead, _, due⟩
          · rw [concluded_of_failed failed] at found
            cases found
          · rw [concluded_of_done idle done] at found
            exact ⟨tour, List.mem_cons_self, idle, done, Option.some.inj found⟩
          · rw [concluded_of_due due] at found
            cases found

theorem Passes.measured {steps : List Step} {moment : Moment} {passed : List Moment}
    (passes : Passes (start .fresh steps) passed moment) :
    (∀ tour ∈ moment.tours, tour.Measured) ∧
      ∀ report ∈ passed.filterMap concluded,
        report.dropped ≤ report.gone.length ∧ report.gone.length ≤ report.recipients := by
  induction passes with
  | here => exact ⟨nofun, nofun⟩
  | @move passed moment next _ move ih =>
      obtain ⟨underway, reported⟩ := ih
      refine ⟨move.measured underway, fun report member => ?_⟩
      rw [filterMap_concat] at member
      rcases List.mem_append.mp member with old | last
      · exact reported report old
      · obtain ⟨tour, innermost, idle, done, rfl⟩ :=
          exists_tour_of_concluded (Option.mem_toList.mp last)
        obtain ⟨dropped, gone⟩ := underway tour innermost
        rw [idle] at gone
        simpa [Tour.report, Tour.roster, done, dropped] using gone

/-- Whoever is registered at the end of a run was registered under a free number and has not
been removed since, and each removal is counted once: as that of a known number, as a removal
by number and channel that a step was told of, or among those that one of the broadcasts,
outer or within others, reports dropped. A broadcast reports gone at most its recipients, and
dropped at most those. -/
theorem size_eq_registrations_less_removals (steps : List Step) :
    let outcome := Step.runAll steps .fresh
    let reports := reportsOfAnswers outcome.2
    ∃ passed, Passes (start .fresh steps) passed (finished outcome.1) ∧
      reports.Perm (passed.filterMap concluded) ∧
      outcome.1.registry.size + passed.countP unregistersKnown + passed.countP withdrawsOne +
          (reports.map Report.dropped).sum = passed.countP registersNew ∧
      ∀ report ∈ reports,
        report.dropped ≤ report.gone.length ∧ report.gone.length ≤ report.recipients := by
  intro outcome reports
  obtain ⟨passed, passes⟩ := Reaches.exists_passes (occursIn_runAll steps)
  have same : reports.Perm (passed.filterMap concluded) := passes.perm_reportsOfAnswers
  refine ⟨passed, passes, same, ?_, fun report member => ?_⟩
  · -- Nobody is registered at first, and no broadcast is under way at first or at last.
    rw [(same.map Report.dropped).sum_nat]
    exact passes.balance.trans (Nat.zero_add (passed.countP registersNew))
  · exact passes.measured.2 report (same.mem_iff.mp member)

/-- A client that a broadcast and one within it both find gone is dropped by the inner one. -/
example :
    (reportsOfAnswers (Step.runAll
      [.join "a", .join "b", .dropReceiver "a",
        .broadcast (.line "one") [(0, [.broadcast (.line "two") []])]] .fresh).2).map
      (fun report => (report.recipients, report.gone, report.dropped)) =
    [(2, [1], 1), (2, [1], 0)] := rfl

end Moment

end PipeCast.Hub
