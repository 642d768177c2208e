import PipeCast.Proofs.Hub.Receipts

/-!
# The turns of a broadcast

Whatever happens between a failed delivery and the removal that follows it, a
broadcast attempts one delivery for each entry of the roster that it began with, in
the order of the roster. Broadcasts within it are innermost and bear greater
numbers, so what they deliver is not taken for its own. Between its turns a broadcast
changes no queue.
-/

set_option autoImplicit false

namespace PipeCast.Hub.Moment

/-- The deliveries that the moves from some moments attempt on account of one
broadcast. -/
def attempts (number : Nat) (passed : List Moment) : List Delivery :=
  (passed.filterMap due).filter fun attempt => attempt.cause.number? = some number

theorem attempts_append (number : Nat) (earlier later : List Moment) :
    attempts number (earlier ++ later) = attempts number earlier ++ attempts number later := by
  rw [attempts, List.filterMap_append, List.filter_append]
  rfl

theorem attempts_of_due {number : Nat} {moment : Moment} {attempt : Delivery}
    (found : moment.due = some attempt) (own : attempt.cause.number? = some number) :
    attempts number [moment] = [attempt] := by
  simp [attempts, found, own]

theorem attempts_eq_nil {number : Nat} {moment : Moment}
    (apart : ∀ attempt, moment.due = some attempt → attempt.cause.number? ≠ some number) :
    attempts number [moment] = [] := by
  refine List.filter_eq_nil_iff.mpr fun attempt member => ?_
  obtain ⟨other, same, found⟩ := List.mem_filterMap.mp member
  rw [List.mem_singleton.mp same] at found
  simpa using apart attempt found

theorem number?_of_isPlain {step : Step} (plain : step.isPlain = true) {hub : Hub}
    {todo : List Step} {tours : List Tour} {attempt : Delivery}
    (found : due ⟨hub, step :: todo, tours⟩ = some attempt) : attempt.cause.number? = none := by
  cases step with
  | deliver name text =>
      obtain ⟨channel, _, made⟩ := Option.map_eq_some_iff.mp found
      rw [← made]
      rfl
  | broadcast | readPipe => cases plain
  | _ => cases found

theorem number?_of_tour {tour : Tour} {tours : List Tour} {hub : Hub} {attempt : Delivery}
    (found : due ⟨hub, [], tour :: tours⟩ = some attempt) :
    attempt.cause.number? = some tour.number := by
  simp only [due] at found
  split at found
  · cases found
    rfl
  · cases found

/-- A broadcast under way that began before all others under way, with what it has
attempted so far. -/
structure Outermost (sending : Sending) (attempted : List Delivery) (inner : List Tour)
    (tour : Tour) (moment : Moment) : Prop where
  tours : moment.tours = inner ++ [tour]
  same : tour.sending = sending
  last : tour.later = []
  newer : ∀ other ∈ inner, sending.number < other.number
  begun : sending.number < moment.hub.begun
  visited : attempted.map Delivery.attempted = tour.visited.map sending.copy
  gone : (attempted.filter fun attempt => !attempt.succeeded).map Delivery.cause =
    (tour.gone.reverse ++ tour.failed.toList.map Prod.fst).map (Cause.broadcast sending.number)

namespace Outermost

variable {sending : Sending} {attempted : List Delivery} {inner inner' : List Tour}
  {tour current : Tour} {moment after : Moment} {hub : Hub} {tours : List Tour}

theorem innermost {todo : List Step}
    (outermost : Outermost sending attempted inner tour ⟨hub, todo, current :: tours⟩) :
    (inner = [] ∧ current = tour ∧ tours = []) ∨
      ∃ rest, inner = current :: rest ∧ tours = rest ++ [tour] := by
  have shape := outermost.tours
  cases inner with
  | nil =>
      cases shape
      exact .inl ⟨rfl, rfl, rfl⟩
  | cons head rest =>
      cases shape
      exact .inr ⟨rest, rfl, rfl⟩

/-! ### Moves of others -/

theorem elsewhere (outermost : Outermost sending attempted inner tour moment)
    (tours : after.tours = inner' ++ [tour])
    (newer : ∀ other ∈ inner', sending.number < other.number)
    (begun : moment.hub.begun ≤ after.hub.begun)
    (apart : ∀ attempt, moment.due = some attempt →
      attempt.cause.number? ≠ some sending.number) :
    Outermost sending (attempted ++ attempts sending.number [moment]) inner' tour after := by
  rw [attempts_eq_nil apart, List.append_nil]
  exact ⟨tours, outermost.same, outermost.last, newer,
    Nat.lt_of_lt_of_le outermost.begun begun, outermost.visited, outermost.gone⟩

theorem inside {rest : List Tour}
    (outermost : Outermost sending attempted (current :: rest) tour
      ⟨hub, [], current :: (rest ++ [tour])⟩)
    (changed : Hub) (todo : List Step) (current' : Tour) (begun : changed.begun = hub.begun)
    (same : current'.number = current.number) :
    Outermost sending
      (attempted ++ attempts sending.number [⟨hub, [], current :: (rest ++ [tour])⟩])
      (current' :: rest) tour ⟨changed, todo, current' :: (rest ++ [tour])⟩ := by
  have newer := outermost.newer current List.mem_cons_self
  refine outermost.elsewhere rfl ?_ (Nat.le_of_eq begun.symm) ?_
  · intro other member
    rcases List.mem_cons.mp member with head | later
    · rw [head, same]
      exact newer
    · exact outermost.newer other (List.mem_cons_of_mem _ later)
  · -- An inner broadcast began later, so what it delivers bears another number.
    intro attempt found own
    rw [number?_of_tour found] at own
    exact absurd (Option.some.inj own) (Nat.ne_of_gt newer)

/-! ### Moves of its own -/

section

variable {entry : ClientId × ChannelId} {ahead : Roster}

theorem turn (outermost : Outermost sending attempted [] tour ⟨hub, [], [tour]⟩)
    (idle : tour.failed = none) (next : tour.ahead = entry :: ahead)
    (changed : Hub) (todo : List Step) (begun : changed.begun = hub.begun)
    {failed : Option (ClientId × ChannelId)}
    (missed : failed = if hub.isLive entry.2 then none else some entry) :
    Outermost sending (attempted ++ attempts sending.number [⟨hub, [], [tour]⟩])
      [] { tour.advance entry ahead with failed := failed }
      ⟨changed, todo, [{ tour.advance entry ahead with failed := failed }]⟩ := by
  cases outermost.same
  have own : attempts tour.sending.number [⟨hub, [], [tour]⟩] = [_] :=
    attempts_of_due (due_of_idle idle next) rfl
  rw [own]
  refine ⟨rfl, ?_, outermost.last, List.forall_mem_nil _, ?_, ?_, ?_⟩
  · exact tour.sending_advance next
  · simpa only [begun] using outermost.begun
  · rw [List.map_append, outermost.visited, Tour.advance, List.map_append]
    rfl
  · have before := outermost.gone
    rw [idle, Option.toList_none, List.map_nil, List.append_nil] at before
    rw [List.filter_append, List.map_append, before, missed]
    cases hub.isLive entry.2 with
    | true => simp [Tour.advance]
    | false => simp [Tour.advance, Tour.cause, Tour.sending]

theorem settle (outermost : Outermost sending attempted [] tour ⟨hub, [], [tour]⟩)
    (failed : tour.failed = some entry) (changed : Hub) (begun : changed.begun = hub.begun)
    (removed : Bool) :
    Outermost sending (attempted ++ attempts sending.number [⟨hub, [], [tour]⟩])
      [] (tour.settle entry removed) ⟨changed, [], [tour.settle entry removed]⟩ := by
  have nothing : attempts sending.number [⟨hub, [], [tour]⟩] = [] := by
    refine attempts_eq_nil fun attempt found => ?_
    rw [due_of_failed failed] at found
    cases found
  rw [nothing, List.append_nil]
  refine ⟨rfl, outermost.same, outermost.last, List.forall_mem_nil _, ?_, outermost.visited, ?_⟩
  · simpa only [begun] using outermost.begun
  · rw [outermost.gone, failed]
    simp [Tour.settle]

end

theorem next (outermost : Outermost sending attempted inner tour moment)
    (move : Next moment after) :
    (∃ inner' tour', Outermost sending (attempted ++ attempts sending.number [moment])
      inner' tour' after) ∨ ∃ hub, after = finished hub := by
  cases move with
  | @act hub step todo tours plain =>
      refine .inl ⟨inner, tour, outermost.elsewhere outermost.tours outermost.newer
        (Nat.le_of_eq (run_beside plain hub).begun.symm) ?_⟩
      intro attempt found
      rw [number?_of_isPlain plain found]
      nofun
  | read =>
      exact .inl ⟨inner, tour, outermost.elsewhere outermost.tours outermost.newer
        (Nat.le_refl _) nofun⟩
  | @begin hub message scripts todo tours =>
      refine .inl ⟨.start hub message scripts todo :: inner, tour,
        outermost.elsewhere (congrArg _ outermost.tours) ?_ (Nat.le_succ _) nofun⟩
      intro other member
      rcases List.mem_cons.mp member with new | old
      · rw [new]
        exact outermost.begun
      · exact outermost.newer other old
  | @reach hub current entry ahead tours idle next live =>
      left
      rcases outermost.innermost with ⟨rfl, rfl, rfl⟩ | ⟨rest, rfl, rfl⟩
      · have turned := outermost.turn idle next
          (hub.deliver (current.cause entry) entry.2 current.message.text).1 []
          (begun_deliver ..) (idle.trans (if_pos live).symm)
        exact ⟨[], _, turned⟩
      · have moved := outermost.inside
          (hub.deliver (current.cause entry) entry.2 current.message.text).1 []
          (current.advance entry ahead) (begun_deliver ..) rfl
        exact ⟨_, _, moved⟩
  | @miss hub current entry ahead tours idle next dead =>
      left
      have missed : some entry = if hub.isLive entry.2 then none else some entry := by
        rw [dead]
        rfl
      rcases outermost.innermost with ⟨rfl, rfl, rfl⟩ | ⟨rest, rfl, rfl⟩
      · have turned := outermost.turn idle next
          (hub.deliver (current.cause entry) entry.2 current.message.text).1
          (scriptFor current.gone.length current.scripts) (begun_deliver ..) missed
        exact ⟨[], _, turned⟩
      · have moved := outermost.inside
          (hub.deliver (current.cause entry) entry.2 current.message.text).1
          (scriptFor current.gone.length current.scripts)
          { current.advance entry ahead with failed := some entry } (begun_deliver ..) rfl
        exact ⟨_, _, moved⟩
  | @remove hub current entry tours failed =>
      left
      rcases outermost.innermost with ⟨rfl, rfl, rfl⟩ | ⟨rest, rfl, rfl⟩
      · have settled := outermost.settle failed
          (hub.withdraw (current.cause entry) entry.1 entry.2).1 rfl
          (hub.withdraw (current.cause entry) entry.1 entry.2).2
        exact ⟨[], _, settled⟩
      · have moved := outermost.inside
          (hub.withdraw (current.cause entry) entry.1 entry.2).1 []
          (current.settle entry (hub.withdraw (current.cause entry) entry.1 entry.2).2) rfl rfl
        exact ⟨_, _, moved⟩
  | @finish hub current tours idle done =>
      rcases outermost.innermost with ⟨rfl, rfl, rfl⟩ | ⟨rest, rfl, rfl⟩
      · exact .inr ⟨_, by rw [outermost.last]; rfl⟩
      · refine .inl ⟨rest, tour, outermost.elsewhere rfl ?_ (Nat.le_refl _) ?_⟩
        · exact fun other member => outermost.newer other (List.mem_cons_of_mem _ member)
        · rw [due_of_done done]
          nofun

theorem complete (outermost : Outermost sending attempted inner tour moment)
    (idle : tour.failed = none) (done : tour.ahead = []) :
    attempted.map Delivery.attempted = sending.roster.map sending.copy ∧
      (attempted.filter fun attempt => !attempt.succeeded).map Delivery.cause =
        tour.report.gone.map (Cause.broadcast sending.number) := by
  have visited : tour.visited = sending.roster := by
    have same := congrArg Sending.roster outermost.same
    rwa [Tour.sending, Tour.roster, done, List.append_nil] at same
  constructor
  · exact visited ▸ outermost.visited
  · rw [outermost.gone, idle, Tour.report, Option.toList_none, List.map_nil, List.append_nil]

end Outermost

theorem pairwise_gone {sending : Sending} {attempted : List Delivery} {gone : List ClientId}
    (ascending : sending.roster.IsAscending)
    (turns : attempted.map Delivery.attempted = sending.roster.map sending.copy)
    (failed : (attempted.filter fun attempt => !attempt.succeeded).map Delivery.cause =
      gone.map (Cause.broadcast sending.number)) : gone.Pairwise (· < ·) := by
  have causes : attempted.map Delivery.cause =
      (sending.roster.map Prod.fst).map (Cause.broadcast sending.number) := by
    have made := congrArg (List.map Delivery.cause) turns
    rw [List.map_map, List.map_map] at made
    rw [List.map_map]
    exact made
  have among : (gone.map (Cause.broadcast sending.number)).Sublist
      ((sending.roster.map Prod.fst).map (Cause.broadcast sending.number)) := by
    rw [← failed, ← causes]
    exact List.filter_sublist.map _
  obtain ⟨chosen, within, same⟩ := List.sublist_map_iff.mp among
  have found : gone = chosen := by
    refine List.map_injective_iff.mpr ?_ same
    intro left right equal
    cases equal
    rfl
  rw [found]
  exact (List.pairwise_map.mpr ascending).sublist within

theorem text_of_attempted {sending : Sending} {attempted : List Delivery} {attempt : Delivery}
    (turns : attempted.map Delivery.attempted = sending.roster.map sending.copy)
    (member : attempt ∈ attempted) : attempt.text = sending.message.text := by
  have copied := List.mem_map_of_mem (f := Delivery.attempted) member
  rw [turns] at copied
  obtain ⟨entry, _, made⟩ := List.mem_map.mp copied
  exact congrArg Delivery.text made.symm

/-- What a channel receives of a broadcast if no delivery to it fails. -/
theorem receivedBy_of_turns {sending : Sending} {attempted : List Delivery} {channel : ChannelId}
    (turns : attempted.map Delivery.attempted = sending.roster.map sending.copy)
    (succeed : ∀ attempt ∈ attempted, attempt.channel = channel → attempt.succeeded = true) :
    receivedBy channel attempted =
      (sending.roster.filter fun entry => entry.2 = channel).map fun _ => sending.message.text := by
  have reached : (attempted.filter fun attempt =>
      attempt.channel = channel ∧ attempt.succeeded = true) =
        attempted.filter fun attempt => attempt.channel = channel := by
    refine List.filter_congr fun attempt member => ?_
    by_cases here : attempt.channel = channel
    · simp [here, succeed attempt member here]
    · simp [here]
  calc receivedBy channel attempted
      = (attempted.filter fun attempt => attempt.channel = channel).map Delivery.text := by
        rw [receivedBy, reached]
    _ = ((attempted.map Delivery.attempted).filter fun attempt =>
          attempt.channel = channel).map Delivery.text := by
        rw [List.filter_map, List.map_map]
        rfl
    _ = ((sending.roster.map sending.copy).filter fun attempt =>
          attempt.channel = channel).map Delivery.text := by rw [turns]
    _ = (sending.roster.filter fun entry => entry.2 = channel).map fun _ =>
          sending.message.text := by
        rw [List.filter_map, List.map_map]
        rfl

/-- What is attempted on account of a broadcast succeeds at a channel whose receiver
existed before it and exists afterwards. -/
theorem Passes.succeeded {first moment : Moment} {passed : List Moment} {number : Nat}
    {attempt : Delivery} (passes : Passes first passed moment)
    (present : attempt.channel < first.hub.channels.size)
    (live : moment.hub.isLive attempt.channel = true)
    (own : attempt ∈ attempts number passed) : attempt.succeeded = true := by
  obtain ⟨middle, member, found⟩ := List.mem_filterMap.mp (List.mem_filter.mp own).1
  obtain ⟨earlier, later, rfl⟩ := List.append_of_mem member
  obtain ⟨_, _, move, _⟩ := passes.split
  rw [(move.queueOf_of_due found).1]
  exact passes.isLive present live

section

variable (hub : Hub) (message : Message) (scripts : List (Nat × List Step))

theorem Passes.outermost {passed : List Moment} {moment : Moment}
    (passes : Passes (start hub [.broadcast message scripts]) passed moment) :
    (passed = [] ∧ moment = start hub [.broadcast message scripts]) ∨
      (∃ inner tour, Outermost ⟨hub.begun, message, hub.registry.roster⟩
        (attempts hub.begun passed) inner tour moment) ∨
      ∃ ended, moment = finished ended := by
  induction passes with
  | here => exact .inl ⟨rfl, rfl⟩
  | @move passed moment next _ move ih =>
      right
      rcases ih with ⟨rfl, rfl⟩ | ⟨inner, tour, outermost⟩ | ⟨ended, rfl⟩
      · cases move with
        | act plain => cases plain
        | begin =>
            exact .inl ⟨[], _, rfl, rfl, rfl, List.forall_mem_nil _, Nat.lt_succ_self _,
              rfl, rfl⟩
      · rw [attempts_append]
        exact (outermost.next move).imp_left id
      · exact absurd move Next.not_finished

/-- A broadcast comes to the moment when all its turns are over, and what it answers is
what it has come to then. -/
theorem exists_passes_to_end :
    ∃ (passed : List Moment) (before : Hub) (tour : Tour)
      (answers : List (Option (List (Reply × Nat)))),
      Passes (start hub [.broadcast message scripts]) passed ⟨before, [], [tour]⟩ ∧
      tour.failed = none ∧ tour.ahead = [] ∧ tour.later = [] ∧
      (Step.broadcast message scripts).run hub =
        (before.finish tour.number tour.report, .broadcast tour.report answers) := by
  let ready := Step.prepare scripts
  let first : Progress (List (Option (List (Reply × Nat)))) :=
    ⟨hub.begin message, [], 0, ready.map fun _ => none⟩
  let final := hub.registry.roster.foldl
    (Progress.visit (playScripts ready) hub.begun message.text) first
  have turns := turns_reach (plays_scripts scripts) hub.begun message [] [] []
    hub.registry.roster first (length_unplayed scripts)
  obtain ⟨passed, passes⟩ := Reaches.exists_passes (.head .begin turns)
  refine ⟨passed, final.hub, _, final.notes, passes, rfl, rfl, rfl, ?_⟩
  simp only [Step.run, broadcastWith, Tour.report, Tour.roster, List.nil_append, List.append_nil]
  rfl

/-- A broadcast comes to its end with every turn of its roster behind it. -/
theorem exists_passes_to_finished :
    let sending : Sending := ⟨hub.begun, message, hub.registry.roster⟩
    let outcome := (Step.broadcast message scripts).run hub
    ∃ (passed : List Moment) (report : Report) (answers : List (Option (List (Reply × Nat)))),
      Passes (start hub [.broadcast message scripts]) passed (finished outcome.1) ∧
      outcome.2 = .broadcast report answers ∧
      (attempts sending.number passed).map Delivery.attempted =
        sending.roster.map sending.copy ∧
      ((attempts sending.number passed).filter fun attempt => !attempt.succeeded).map
          Delivery.cause = report.gone.map (Cause.broadcast sending.number) := by
  intro sending outcome
  obtain ⟨passed, before, tour, answers, passes, idle, done, last, result⟩ :=
    exists_passes_to_end hub message scripts
  have ended := passes.move (.finish idle done)
  rw [last] at ended
  rcases passes.outermost with ⟨_, absurd⟩ | ⟨inner, outer, outermost⟩ | ⟨_, absurd⟩
  · cases absurd
  · obtain ⟨_, rfl, _⟩ | ⟨rest, _, shape⟩ := outermost.innermost
    · have all : attempts sending.number (passed ++ [⟨before, [], [tour]⟩]) =
          attempts sending.number passed := by
        rw [attempts_append, attempts_eq_nil, List.append_nil]
        rw [due_of_done done]
        nofun
      refine ⟨passed ++ [⟨before, [], [tour]⟩], tour.report, answers, ?_, ?_, ?_⟩
      · simp only [outcome, result]
        exact ended
      · simp only [outcome, result]
      · rw [all]
        exact outermost.complete idle done
    · simp at shape
  · cases absurd

/-- A broadcast attempts one delivery for each entry of the roster that it began with,
in ascending order, and reports gone the numbers whose receiver did not exist at their
turn. A delivery whose receiver exists adds the text to the queue once. What happens in
between makes no difference, whoever joins or leaves. The other moves of the broadcast
change no queue and no receiver, so a channel whose receiver outlives it has received
one copy of its text for each entry that leads there, and beyond that only what other
deliveries brought. -/
theorem broadcast_attempts_each_entry_once :
    let sending : Sending := ⟨hub.begun, message, hub.registry.roster⟩
    let outcome := (Step.broadcast message scripts).run hub
    ∃ (passed : List Moment) (report : Report) (answers : List (Option (List (Reply × Nat)))),
      Passes (start hub [.broadcast message scripts]) passed (finished outcome.1) ∧
      outcome.2 = .broadcast report answers ∧
      sending.roster.IsAscending ∧
      (attempts sending.number passed).map Delivery.attempted =
        sending.roster.map sending.copy ∧
      ((attempts sending.number passed).filter fun attempt => !attempt.succeeded).map
          Delivery.cause = report.gone.map (Cause.broadcast sending.number) ∧
      report.gone.Pairwise (· < ·) ∧
      (∀ moment ∈ passed, ∀ attempt next, moment.due = some attempt →
        attempt.cause.number? = some sending.number → Next moment next →
          attempt.succeeded = moment.hub.isLive attempt.channel ∧
          ∀ channel, next.hub.queueOf channel = moment.hub.queueOf channel ++
            if channel = attempt.channel ∧ attempt.succeeded = true then [message.text]
            else []) ∧
      (∀ moment ∈ passed, ∀ next, Next moment next →
        (moment.isBroadcasting = true →
          next.hub.isLive = moment.hub.isLive ∧
          ∀ channel, next.hub.queueOf channel =
            moment.hub.queueOf channel ++ receivedBy channel moment.due.toList) ∧
        ∀ channel, next.hub.isLive channel = true →
          Conserve [moment] channel moment.hub next.hub) ∧
      ∀ channel, outcome.1.isLive channel = true →
        Conserve passed channel hub outcome.1 ∧
        (channel < hub.channels.size → receivedBy channel (attempts sending.number passed) =
          (sending.roster.filter fun entry => entry.2 = channel).map fun _ => message.text) := by
  intro sending outcome
  obtain ⟨passed, report, answers, passes, told, turns, gone⟩ :=
    exists_passes_to_finished hub message scripts
  refine ⟨passed, report, answers, passes, told, hub.registry.ascending, turns, gone,
    pairwise_gone hub.registry.ascending turns gone, ?_, ?_, ?_⟩
  · intro moment member attempt next found own move
    have attempted : attempt ∈ attempts sending.number passed :=
      List.mem_filter.mpr ⟨List.mem_filterMap.mpr ⟨moment, member, found⟩, by simpa using own⟩
    have text : attempt.text = message.text := text_of_attempted turns attempted
    rw [← text]
    exact move.queueOf_of_due found
  · intro moment _ next move
    refine ⟨move.of_isBroadcasting, fun channel live => ?_⟩
    exact (Passes.here.move move).conserve live
  · intro channel live
    refine ⟨passes.conserve live, fun present => ?_⟩
    refine receivedBy_of_turns turns fun attempt own here => ?_
    subst here
    exact passes.succeeded present live own

end

end PipeCast.Hub.Moment
