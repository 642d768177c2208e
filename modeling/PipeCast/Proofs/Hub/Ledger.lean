import Mathlib.Data.List.Nodup
import PipeCast.Proofs.Hub.Sound

/-!
# What every broadcast has delivered

At every moment of a run each broadcast that has begun has delivered its text once
for each entry of its roster whose turn has come, in the order of the roster, and
nothing else has been delivered on its account.
-/

set_option autoImplicit false

namespace PipeCast.Hub

/-- A broadcast as it began. -/
structure Sending where
  number : Nat
  message : Message
  roster : Roster
  deriving DecidableEq, Repr

@[simp] def Event.sending? : Event → Option Sending
  | .began number message roster => some ⟨number, message, roster⟩
  | _ => none

/-- The broadcasts among some events, in the order in which they began. -/
def sendings (events : List Event) : List Sending :=
  events.filterMap Event.sending?

/-- The attempts to deliver on account of one broadcast. -/
def copies (number : Nat) (events : List Event) : List Delivery :=
  (deliveries events).filter fun delivery => delivery.cause.number? = some number

/-- An attempt to deliver, its outcome left aside. -/
def Delivery.attempted (delivery : Delivery) : Delivery :=
  { delivery with succeeded := true }

/-- The delivery that a broadcast owes an entry. -/
def Sending.copy (sending : Sending) (entry : ClientId × ChannelId) : Delivery :=
  ⟨.broadcast sending.number entry.1, entry.2, sending.message.text, true⟩

section

variable (number : Nat) (event : Event) (earlier later : List Event)

@[simp] theorem sendings_append :
    sendings (earlier ++ later) = sendings earlier ++ sendings later :=
  List.filterMap_append

@[simp] theorem sendings_singleton : sendings [event] = event.sending?.toList := by
  cases event <;> rfl

@[simp] theorem copies_append :
    copies number (earlier ++ later) = copies number earlier ++ copies number later := by
  rw [copies, deliveries_append, List.filter_append]
  rfl

end

theorem copies_eq_nil {number : Nat} {events : List Event}
    (free : ∀ event ∈ events, event.number? ≠ some number) : copies number events = [] := by
  refine List.filter_eq_nil_iff.mpr fun delivery member => ?_
  obtain ⟨event, present, found⟩ := List.mem_filterMap.mp member
  have other := free event present
  cases event <;> cases found
  simpa [Event.number?] using other

theorem sendings_eq_nil {events : List Event}
    (free : ∀ event ∈ events, event.number? = none) : sendings events = [] := by
  refine List.filterMap_eq_nil_iff.mpr fun event member => ?_
  have apart := free event member
  cases event <;> first | rfl | cases apart

/-- The broadcast that a tour carries out. -/
def Tour.sending (tour : Tour) : Sending :=
  ⟨tour.number, tour.message, tour.roster⟩

theorem Tour.sending_advance (tour : Tour) {entry : ClientId × ChannelId} {ahead : Roster}
    (next : tour.ahead = entry :: ahead) : (tour.advance entry ahead).sending = tour.sending :=
  congrArg (Sending.mk tour.number tour.message) (tour.roster_advance next)

namespace Moment

/-- The entries of a broadcast whose turn has come: once it is over, all of them. -/
def come (tours : List Tour) (sending : Sending) : Roster :=
  ((tours.find? fun tour => tour.number = sending.number).map Tour.visited).getD sending.roster

theorem come_cons (tour : Tour) (tours : List Tour) (sending : Sending) :
    come (tour :: tours) sending =
      if tour.number = sending.number then tour.visited else come tours sending := by
  by_cases same : tour.number = sending.number <;> simp [come, same]

/-- Numbers are given in order, so no event bears one that has not been given yet. -/
theorem Since.copies_eq_nil {moment : Moment} (since : Since .fresh moment) {number : Nat}
    (later : moment.hub.begun ≤ number) : copies number moment.hub.history = [] := by
  obtain ⟨events, history, within⟩ := since.follows.history
  refine Hub.copies_eq_nil fun event member found => ?_
  rw [history, history_fresh, List.nil_append] at member
  exact Nat.not_lt.mpr later (within event member _ found).2

/-- The history agrees with the broadcasts under way. -/
structure Ledger (moment : Moment) : Prop where
  numbers : (sendings moment.hub.history).map Sending.number = List.range moment.hub.begun
  tours : ∀ tour ∈ moment.tours, tour.sending ∈ sendings moment.hub.history
  distinct : (moment.tours.map Tour.number).Nodup
  delivered : ∀ sending ∈ sendings moment.hub.history,
    (copies sending.number moment.hub.history).map Delivery.attempted =
      (come moment.tours sending).map sending.copy

namespace Ledger

variable {hub changed : Hub} {todo todo' : List Step} {tour tour' : Tour} {tours : List Tour}

theorem eq_of_number_eq {moment : Moment} (ledger : moment.Ledger) {first second : Sending}
    (firstBegan : first ∈ sendings moment.hub.history)
    (secondBegan : second ∈ sendings moment.hub.history)
    (same : first.number = second.number) : first = second := by
  have unique : ((sendings moment.hub.history).map Sending.number).Nodup := by
    rw [ledger.numbers]
    exact List.nodup_range
  exact List.inj_on_of_nodup_map unique firstBegan secondBegan same

theorem number_lt {moment : Moment} (ledger : moment.Ledger) {sending : Sending}
    (began : sending ∈ sendings moment.hub.history) : sending.number < moment.hub.begun := by
  have member := List.mem_map_of_mem (f := Sending.number) began
  rw [ledger.numbers] at member
  exact List.mem_range.mp member

theorem come_eq_visited {moment : Moment} (ledger : moment.Ledger) {tour : Tour}
    (member : tour ∈ moment.tours) : come moment.tours tour.sending = tour.visited := by
  have found :
      moment.tours.find? (fun other => other.number = tour.sending.number) = some tour := by
    cases found : moment.tours.find? fun other => other.number = tour.sending.number with
    | none => simpa [Tour.sending] using List.find?_eq_none.mp found tour member
    | some other =>
        have same : other.number = tour.sending.number := by simpa using List.find?_some found
        have present := List.mem_of_find?_eq_some found
        rw [List.inj_on_of_nodup_map ledger.distinct present member same]
  rw [come, found]
  rfl

theorem beside (ledger : Ledger ⟨hub, todo, tours⟩) (beside : hub.Beside changed) :
    Ledger ⟨changed, todo', tours⟩ := by
  obtain ⟨begun, _, events, history, free⟩ := beside
  have noSendings := sendings_eq_nil free
  have began : sendings changed.history = sendings hub.history := by
    rw [history, sendings_append, noSendings, List.append_nil]
  refine ⟨?_, ?_, ledger.distinct, ?_⟩
  · rw [began, begun]
    exact ledger.numbers
  · rw [began]
    exact ledger.tours
  · intro sending member
    have noCopies : copies sending.number events = [] :=
      copies_eq_nil fun event present => by rw [free event present]; nofun
    rw [began] at member
    rw [history, copies_append, noCopies, List.append_nil]
    exact ledger.delivered sending member

theorem advance (ledger : Ledger ⟨hub, todo, tour :: tours⟩) {event : Event}
    (begun : changed.begun = hub.begun) (history : changed.history = hub.history ++ [event])
    (began : event.sending? = none) (own : event.number? = some tour.number)
    (same : tour'.sending = tour.sending) {turns : Roster}
    (visited : tour'.visited = tour.visited ++ turns)
    (told : (copies tour.number [event]).map Delivery.attempted =
      turns.map tour.sending.copy) :
    Ledger ⟨changed, todo', tour' :: tours⟩ := by
  have sameNumber : tour'.number = tour.number := congrArg Sending.number same
  have sendingsSame : sendings changed.history = sendings hub.history := by
    rw [history, sendings_append, sendings_singleton, began]
    exact List.append_nil _
  refine ⟨?_, ?_, ?_, ?_⟩
  · rw [sendingsSame, begun]
    exact ledger.numbers
  · rw [sendingsSame]
    intro other member
    rcases List.mem_cons.mp member with head | later
    · rw [head, same]
      exact ledger.tours tour List.mem_cons_self
    · exact ledger.tours other (List.mem_cons_of_mem _ later)
  · rw [List.map_cons, sameNumber]
    exact ledger.distinct
  · intro sending member
    rw [sendingsSame] at member
    have before := ledger.delivered sending member
    rw [come_cons] at before
    rw [history, copies_append, List.map_append, before, come_cons, sameNumber]
    by_cases current : tour.number = sending.number
    · have found : sending = tour.sending :=
        ledger.eq_of_number_eq member (ledger.tours tour List.mem_cons_self) current.symm
      subst found
      rw [if_pos current, if_pos current, visited, List.map_append, ← told]
      rfl
    · have noCopies : copies sending.number [event] = [] := by
        refine copies_eq_nil fun other present => ?_
        rw [List.mem_singleton.mp present, own]
        exact fun found => current (Option.some.inj found)
      rw [if_neg current, if_neg current, noCopies, List.map_nil, List.append_nil]

theorem leave (ledger : Ledger ⟨hub, todo, tour :: tours⟩) (done : tour.ahead = []) :
    Ledger ⟨hub, todo', tours⟩ := by
  have distinct := List.nodup_cons.mp ledger.distinct
  refine ⟨ledger.numbers, ?_, distinct.2, ?_⟩
  · exact fun other member => ledger.tours other (List.mem_cons_of_mem _ member)
  · intro sending member
    have before := ledger.delivered sending member
    rw [come_cons] at before
    rw [before]
    by_cases current : tour.number = sending.number
    · have found : sending = tour.sending :=
        ledger.eq_of_number_eq member (ledger.tours tour List.mem_cons_self) current.symm
      subst found
      have gone : tours.find? (fun other => other.number = tour.sending.number) = none := by
        refine List.find?_eq_none.mpr fun other present same => ?_
        exact distinct.1 (List.mem_map.mpr ⟨other, present, of_decide_eq_true same⟩)
      rw [if_pos current, come, gone, Tour.sending, Tour.roster, done, List.append_nil]
      rfl
    · rw [if_neg current]

theorem begin (ledger : Ledger ⟨hub, todo, tours⟩) (since : Since .fresh ⟨hub, todo, tours⟩)
    (message : Message) (scripts : List (Nat × List Step)) (later : List Step) :
    Ledger ⟨hub.begin message, todo', .start hub message scripts later :: tours⟩ := by
  have nothing : copies hub.begun hub.history = [] := since.copies_eq_nil (Nat.le_refl _)
  have began : sendings (hub.begin message).history =
      sendings hub.history ++ [⟨hub.begun, message, hub.registry.roster⟩] := by
    rw [history_begin, sendings_append, sendings_singleton]
    rfl
  have silent (number : Nat) :
      copies number (hub.begin message).history = copies number hub.history := by
    rw [history_begin, copies_append]
    exact List.append_nil _
  refine ⟨?_, ?_, ?_, ?_⟩
  · rw [began, List.map_append, ledger.numbers]
    exact List.range_succ.symm
  · rw [began]
    intro tour member
    rcases List.mem_cons.mp member with new | old
    · rw [new]
      exact List.mem_append_right _ List.mem_cons_self
    · exact List.mem_append_left _ (ledger.tours tour old)
  · refine List.nodup_cons.mpr ⟨?_, ledger.distinct⟩
    intro taken
    obtain ⟨tour, member, same⟩ := List.mem_map.mp taken
    have below := (since.tours tour member).2
    rw [same] at below
    exact Nat.lt_irrefl _ below
  · intro sending member
    rw [silent, come_cons]
    rw [began] at member
    rcases List.mem_append.mp member with old | new
    · have other : hub.begun ≠ sending.number := Nat.ne_of_gt (ledger.number_lt old)
      rw [ledger.delivered sending old, Tour.start, if_neg other]
    · cases List.mem_singleton.mp new
      rw [nothing, Tour.start, if_pos rfl]
      rfl

theorem next {moment next : Moment} (ledger : Ledger moment) (since : Since .fresh moment)
    (move : Next moment next) : Ledger next := by
  cases move with
  | @act hub step todo tours plain => exact ledger.beside (run_beside plain hub)
  | read => exact ⟨ledger.numbers, ledger.tours, ledger.distinct, ledger.delivered⟩
  | begin => exact ledger.begin since _ _ _
  | @reach hub tour entry ahead tours idle due | @miss hub tour entry ahead tours idle due =>
      refine ledger.advance (begun_deliver ..) (history_deliver ..) rfl rfl
        (tour.sending_advance due) rfl ?_
      simp [copies, Tour.cause, Cause.number?, Delivery.attempted, Sending.copy, Tour.sending]
  | @remove hub tour entry tours failed =>
      exact ledger.advance rfl (history_withdraw ..) rfl rfl rfl (List.append_nil _).symm rfl
  | @finish hub tour tours idle done =>
      have ended : Ledger ⟨hub.finish tour.number tour.report, tour.later, tour :: tours⟩ :=
        ledger.advance rfl (history_finish ..) rfl rfl rfl (List.append_nil _).symm rfl
      exact ended.leave done

end Ledger

theorem OccursIn.ledger {moment : Moment} {steps : List Step} (occurs : moment.OccursIn steps) :
    moment.Ledger := by
  induction occurs with
  | refl =>
      refine ⟨rfl, ?_, List.nodup_nil, ?_⟩
      · intro tour member
        cases member
      · intro sending member
        cases member
  | tail reaches move ih => exact ih.next (Reaches.since reaches) move

end Moment

end PipeCast.Hub
