import PipeCast.Proofs.Hub.Turns

/-!
# Broadcasts within broadcasts

A broadcast that begins while another is under way finds it at an entry whose delivery failed
and whose removal is still to come. The other broadcast waits beneath it: as long as the inner
one is under way so is the outer one, and nothing is delivered on account of the outer one
until the inner one is over.
-/

set_option autoImplicit false

namespace PipeCast.Hub.Moment

variable {steps : List Step} {first moment next : Moment} {passed : List Moment}

/-! ## Beginnings -/

theorem exists_of_beginning {sending : Sending} (begins : moment.beginning = some sending) :
    ∃ hub message scripts todo tours,
      moment = ⟨hub, .broadcast message scripts :: todo, tours⟩ ∧
        sending = ⟨hub.begun, message, hub.registry.roster⟩ := by
  obtain ⟨hub, todo, tours⟩ := moment
  cases todo with
  | nil => cases begins
  | cons step rest =>
      cases step with
      | broadcast message scripts =>
          exact ⟨hub, message, scripts, rest, tours, rfl, (Option.some.inj begins).symm⟩
      | _ => cases begins

theorem ascending_of_mem_beginning {sending : Sending}
    (began : sending ∈ passed.filterMap beginning) :
    sending.roster.IsAscending := by
  obtain ⟨before, _, begins⟩ := List.mem_filterMap.mp began
  obtain ⟨hub, message, scripts, todo, tours, rfl, rfl⟩ := exists_of_beginning begins
  exact hub.registry.ascending

theorem Passes.sendings_eq (passes : Passes (start .fresh steps) passed moment) :
    sendings moment.hub.history = passed.filterMap beginning :=
  passes.told.2.2

section

variable {middle : Moment} {earlier later : List Moment} {sending : Sending}

theorem mem_beginning_append (began : sending ∈ earlier.filterMap beginning)
    (later : List Moment) : sending ∈ (earlier ++ later).filterMap beginning := by
  rw [List.filterMap_append]
  exact List.mem_append_left _ began

theorem Passes.mem_beginning_of_lt
    (passes : Passes (start .fresh steps) (earlier ++ middle :: later) moment)
    (began : sending ∈ (earlier ++ middle :: later).filterMap beginning)
    (sooner : sending.number < middle.hub.begun) : sending ∈ earlier.filterMap beginning := by
  obtain ⟨reached, _⟩ := passes.split
  have numbered := (OccursIn.ledger reached.reaches).numbers
  rw [reached.sendings_eq] at numbered
  have given := List.mem_range.mpr sooner
  rw [← numbered] at given
  obtain ⟨other, present, same⟩ := List.mem_map.mp given
  have presentToo := mem_beginning_append present (middle :: later)
  rw [← passes.sendings_eq] at began presentToo
  rw [(OccursIn.ledger passes.reaches).eq_of_number_eq began presentToo same.symm]
  exact present

end

/-! ## Broadcasts under way -/

/-- The numbers of the broadcasts under way, innermost first. -/
def numbers (moment : Moment) : List Nat := moment.tours.map Tour.number

/-- The second broadcast begins while the first is about to remove this entry. -/
def BeginsWithin (passed : List Moment) (outer inner : Sending)
    (failed : ClientId × ChannelId) : Prop :=
  ∃ before ∈ passed, before.beginning = some inner ∧
    ∃ tour ∈ before.tours, tour.sending = outer ∧ tour.failed = some failed

/-- Every broadcast that waits for others to go on has come to an entry whose delivery
failed. -/
structure Waiting (moment : Moment) : Prop where
  turn : ∀ tour ∈ moment.tours, ∀ entry, tour.failed = some entry →
    ∃ before, tour.visited = before ++ [entry]
  outer : ∀ tour ∈ moment.tours.tail, ∃ entry, tour.failed = some entry
  busy : moment.todo ≠ [] → ∀ tour ∈ moment.tours, ∃ entry, tour.failed = some entry

theorem Next.waiting (move : Next moment next) (waiting : Waiting moment) : Waiting next := by
  cases move with
  | act => exact ⟨waiting.turn, waiting.outer, fun _ => waiting.busy nofun⟩
  | read => exact ⟨waiting.turn, waiting.outer, fun _ => waiting.busy nofun⟩
  | begin =>
      refine ⟨List.forall_mem_cons.mpr ⟨?_, waiting.turn⟩, waiting.busy nofun, absurd rfl⟩
      intro entry failed
      cases failed
  | @reach hub tour entry ahead tours idle due =>
      obtain ⟨_, turns⟩ := List.forall_mem_cons.mp waiting.turn
      refine ⟨List.forall_mem_cons.mpr ⟨?_, turns⟩, waiting.outer, absurd rfl⟩
      intro entry failed
      cases idle.symm.trans failed
  | @miss hub tour entry ahead tours idle due =>
      obtain ⟨_, turns⟩ := List.forall_mem_cons.mp waiting.turn
      refine ⟨List.forall_mem_cons.mpr ⟨?_, turns⟩, waiting.outer,
        fun _ => List.forall_mem_cons.mpr ⟨⟨entry, rfl⟩, waiting.outer⟩⟩
      intro found failed
      cases failed
      exact ⟨tour.visited, rfl⟩
  | @remove hub tour entry tours failed =>
      obtain ⟨_, turns⟩ := List.forall_mem_cons.mp waiting.turn
      refine ⟨List.forall_mem_cons.mpr ⟨?_, turns⟩, waiting.outer, absurd rfl⟩
      intro found settled
      cases settled
  | @finish hub tour tours =>
      obtain ⟨_, turns⟩ := List.forall_mem_cons.mp waiting.turn
      exact ⟨turns, fun other member => waiting.outer other (List.mem_of_mem_tail member),
        fun _ => waiting.outer⟩

theorem OccursIn.waiting (occurs : moment.OccursIn steps) : Waiting moment := by
  induction occurs with
  | refl => exact ⟨nofun, nofun, fun _ => nofun⟩
  | tail _ move ih => exact move.waiting ih

theorem Next.numbers_cases (move : Next moment next) :
    (next.numbers = moment.numbers ∧ next.hub.begun = moment.hub.begun) ∨
      (next.numbers = moment.hub.begun :: moment.numbers ∧
        next.hub.begun = moment.hub.begun + 1) ∨
      (∃ number, moment.numbers = number :: next.numbers ∧
        next.hub.begun = moment.hub.begun) := by
  cases move with
  | @act hub step todo tours plain => exact .inl ⟨rfl, (run_beside plain hub).begun⟩
  | read => exact .inl ⟨rfl, rfl⟩
  | begin => exact .inr (.inl ⟨rfl, rfl⟩)
  | reach | miss => exact .inl ⟨rfl, begun_deliver ..⟩
  | remove => exact .inl ⟨rfl, rfl⟩
  | finish => exact .inr (.inr ⟨_, rfl, rfl⟩)

/-- As long as a broadcast is under way, so is what it lies within. A broadcast that is over
never goes on. -/
theorem Reaches.beneath {number : Nat} {outer : List Nat} (reaches : Reaches first moment)
    (innermost : first.numbers = number :: outer) (absent : number ∉ outer)
    (begun : number < first.hub.begun) :
    (∃ inner, moment.numbers = inner ++ number :: outer) ∨ number ∉ moment.numbers := by
  suffices kept : number < moment.hub.begun ∧
      ((∃ inner, moment.numbers = inner ++ number :: outer) ∨ number ∉ moment.numbers) from kept.2
  induction reaches with
  | refl => exact ⟨begun, .inl ⟨[], innermost⟩⟩
  | @tail moment next _ move ih =>
      obtain ⟨given, place⟩ := ih
      rcases move.numbers_cases with ⟨same, kept⟩ | ⟨opened, counted⟩ | ⟨_, closed, kept⟩
      · rw [same, kept]
        exact ⟨given, place⟩
      · rw [opened, counted]
        refine ⟨Nat.lt_succ_of_lt given, ?_⟩
        rcases place with ⟨inner, shape⟩ | ended
        · exact .inl ⟨_ :: inner, congrArg _ shape⟩
        · exact .inr (List.not_mem_cons_of_ne_of_not_mem (Nat.ne_of_lt given) ended)
      · rw [kept]
        refine ⟨given, ?_⟩
        rw [closed] at place
        rcases place with ⟨inner, shape⟩ | ended
        · cases inner with
          | nil =>
              cases shape
              exact .inr absent
          | cons head rest => exact .inl ⟨rest, (List.cons.inj shape).2⟩
        · exact .inr (List.not_mem_of_not_mem_cons ended)

theorem come_of_over {sending : Sending} (ended : sending.number ∉ moment.numbers) :
    come moment.tours sending = sending.roster := by
  have gone : moment.tours.find? (fun tour => tour.number = sending.number) = none := by
    refine List.find?_eq_none.mpr fun tour member same => ended ?_
    exact List.mem_map.mpr ⟨tour, member, of_decide_eq_true same⟩
  rw [come, gone]
  rfl

theorem numbers_of_due {attempt : Delivery} {number : Nat} (found : moment.due = some attempt)
    (own : attempt.cause.number? = some number) : ∃ outer, moment.numbers = number :: outer := by
  obtain ⟨hub, todo, tours⟩ := moment
  cases todo with
  | cons step rest =>
      cases step with
      | deliver name text =>
          obtain ⟨channel, _, made⟩ := Option.map_eq_some_iff.mp found
          rw [← made] at own
          cases own
      | _ => cases found
  | nil =>
      cases tours with
      | nil => cases found
      | cons tour outer =>
          rw [number?_of_tour found] at own
          exact ⟨outer.map Tour.number, congrArg (· :: _) (Option.some.inj own)⟩

section

variable {before : Moment} {earlier later : List Moment} {outer inner : Sending}

theorem Passes.exists_beginsWithin
    (passes : Passes (start .fresh steps) (earlier ++ before :: later) moment)
    (begins : before.beginning = some inner) (began : outer ∈ earlier.filterMap beginning)
    (waits : outer.number ∈ before.numbers) :
    ∃ failed, BeginsWithin (earlier ++ before :: later) outer inner failed := by
  obtain ⟨reached, _⟩ := passes.split
  obtain ⟨tour, present, same⟩ := List.mem_map.mp waits
  have ledger := OccursIn.ledger reached.reaches
  rw [← reached.sendings_eq] at began
  have found : tour.sending = outer :=
    ledger.eq_of_number_eq (ledger.tours tour present) began same
  have busy : before.todo ≠ [] := by
    obtain ⟨hub, message, scripts, todo, tours, rfl, _⟩ := exists_of_beginning begins
    nofun
  obtain ⟨entry, failed⟩ := (OccursIn.waiting reached.reaches).busy busy tour present
  exact ⟨entry, before, List.mem_append_right _ List.mem_cons_self, begins, tour, present, found,
    failed⟩

theorem BeginsWithin.exists_split {missed : ClientId} {lost : ChannelId}
    (within : BeginsWithin passed outer inner (missed, lost))
    (passes : Passes (start .fresh steps) passed moment) :
    ∃ earlier before later, passed = earlier ++ before :: later ∧
      before.beginning = some inner ∧ outer ∈ earlier.filterMap beginning ∧
      outer.number ∈ before.numbers ∧ .receiverDropped lost ∈ before.hub.history ∧
      ∃ visited ahead, come before.tours outer = visited ++ [(missed, lost)] ∧
        outer.roster = visited ++ (missed, lost) :: ahead := by
  obtain ⟨before, member, begins, tour, present, rfl, failed⟩ := within
  obtain ⟨earlier, later, rfl⟩ := List.append_of_mem member
  obtain ⟨reached, _⟩ := passes.split
  have ledger := OccursIn.ledger reached.reaches
  obtain ⟨visited, turns⟩ := (OccursIn.waiting reached.reaches).turn tour present _ failed
  refine ⟨earlier, before, later, rfl, begins, ?_, List.mem_map_of_mem present,
    (OccursIn.sound reached.reaches).failed tour present _ failed, visited, tour.ahead, ?_, ?_⟩
  · rw [← reached.sendings_eq]
    exact ledger.tours tour present
  · rw [ledger.come_eq_visited present, turns]
  · rw [Tour.sending, Tour.roster, turns, ← List.append_cons]

/-- While the inner broadcast is under way, so is the outer one, and it is not innermost. -/
theorem Passes.over_of_innermost
    (passes : Passes (start .fresh steps) (earlier ++ before :: later) moment)
    (begins : before.beginning = some inner) (waits : outer.number ∈ before.numbers)
    (free : outer.number ∉ moment.numbers ∨ ∃ rest, moment.numbers = outer.number :: rest) :
    inner.number ∉ moment.numbers := by
  obtain ⟨reached, next, move, rest⟩ := passes.split
  have distinct := (OccursIn.ledger passes.reaches).distinct
  have since := Reaches.since reached.reaches
  obtain ⟨hub, message, scripts, todo, tours, rfl, rfl⟩ := exists_of_beginning begins
  have absent : hub.begun ∉ tours.map Tour.number := by
    intro taken
    obtain ⟨tour, member, same⟩ := List.mem_map.mp taken
    exact Nat.lt_irrefl _ (same ▸ (since.tours tour member).2)
  cases move with
  | act plain => cases plain
  | begin =>
      rcases rest.reaches.beneath rfl absent (Nat.lt_succ_self _) with ⟨within, shape⟩ | ended
      · rcases free with ended | ⟨rest, innermost⟩
        · rw [shape] at ended
          exact absurd (List.mem_append_right _ (List.mem_cons_of_mem _ waits)) ended
        · change moment.numbers.Nodup at distinct
          rw [shape] at distinct innermost
          cases within with
          | nil =>
              have same : hub.begun = outer.number := (List.cons.inj innermost).1
              exact absurd (same ▸ waits) absent
          | cons head within =>
              rw [(List.cons.inj innermost).1] at distinct
              exact absurd (List.mem_append_right _ (List.mem_cons_of_mem _ waits))
                (List.nodup_cons.mp distinct).1
      · exact ended

end

end PipeCast.Hub.Moment
