import PipeCast.Proofs.Hub.Alone
import PipeCast.Proofs.Reader.Cuts

/-!
# Rounds of the reader

The reader goes round without end: it opens its path, forwards what it reads, and begins
again. A round keeps nothing for the next. So what clients get is what each session says on
its own, in the order of the rounds, and it makes no difference whether a writer closes the
pipe after a newline.
-/

set_option autoImplicit false

namespace PipeCast.Reader

open Text

/-- Rounds one after another, with what each came to. -/
def rounds (hub : Hub) : List Opening → Hub × List Outcome
  | [] => (hub, [])
  | opening :: later =>
      let (between, outcome) := round hub opening
      let (final, outcomes) := rounds between later
      (final, outcome :: outcomes)

/-- The messages that a round has sent. -/
def Outcome.said : Outcome → List String
  | .unopened _ => []
  | .ended _ said _ _ => said

/-- What all these rounds have sent. -/
def saidBy (outcomes : List Outcome) : List String :=
  outcomes.flatMap Outcome.said

/-- A session whose input ends without an error. -/
def session (arrivals : List (List UInt8)) : Opening := .opened ⟨arrivals, none⟩

/-- The messages of a session, by the bytes that arrived in it. -/
def messagesOf (bytes : List UInt8) : List String :=
  (piecesOf bytes).map lineOf

/-! ## What a round says and does -/

theorem lines_session (arrivals : List (List UInt8)) :
    (session arrivals).lines = messagesOf arrivals.flatten := by
  rw [session, Opening.lines, Source.pieces_eq_piecesOf rfl, messagesOf]

theorem said_round (hub : Hub) (opening : Opening) :
    (round hub opening).2.said = opening.lines := by
  cases opening with
  | failed error => rfl
  | opened source =>
      rw [round_opened]
      rfl

theorem fst_forwardAll (hub : Hub) (lines : List String) :
    (forwardAll hub lines).1 = hub.broadcastAll (lines.map .line) := by
  induction lines generalizing hub with
  | nil => rfl
  | cons line lines ih => exact ih (hub.broadcast (.line line)).1

theorem fst_round (hub : Hub) (opening : Opening) :
    (round hub opening).1 = hub.broadcastAll (opening.lines.map .line) := by
  cases opening with
  | failed error => rfl
  | opened source => rw [round_opened, fst_forwardAll]

/-! ## What rounds say and do -/

theorem saidBy_rounds (hub : Hub) (openings : List Opening) :
    saidBy (rounds hub openings).2 = openings.flatMap Opening.lines := by
  induction openings generalizing hub with
  | nil => rfl
  | cons opening openings ih =>
      rw [List.flatMap_cons, ← said_round hub opening, ← ih (round hub opening).1]
      rfl

theorem fst_rounds (hub : Hub) (openings : List Opening) :
    (rounds hub openings).1 =
      hub.broadcastAll ((openings.flatMap Opening.lines).map .line) := by
  induction openings generalizing hub with
  | nil => rfl
  | cons opening openings ih =>
      rw [List.flatMap_cons, List.map_append, Hub.broadcastAll_append, ← fst_round]
      exact ih (round hub opening).1

theorem messagesOf_append {before : List UInt8}
    (ended : before = [] ∨ before.getLast? = some newline) (rest : List UInt8) :
    messagesOf (before ++ rest) = messagesOf before ++ messagesOf rest := by
  rw [messagesOf, piecesOf_append_of_ended ended, List.map_append]
  rfl

theorem messagesOf_tail {tail : List UInt8} (nonempty : tail ≠ []) (free : newline ∉ tail) :
    messagesOf tail = (chunksOf pieceLimit tail).map lineOf := by
  rw [messagesOf, piecesOf, linesOf_of_newline_not_mem nonempty free, List.flatMap_singleton]

/-- What a session says does not depend on who listens, so it may be learnt from any other hub. -/
theorem queueOf_rounds (hub alone : Hub) {channel : Hub.ChannelId}
    (live : hub.isLive channel = true) (openings : List Opening) :
    (rounds hub openings).1.queueOf channel = hub.queueOf channel ++
      (openings.flatMap fun opening => (round alone opening).2.said).flatMap
        (List.replicate (hub.entriesOf channel).length) := by
  rw [fst_rounds, Hub.queueOf_broadcastAll hub live, List.flatMap_map]
  simp only [said_round]
  rfl

/-- What follows the last newline of a session is sent by itself, whatever comes later. -/
theorem saidBy_rounds_tail (hub alone : Hub) {arrivals : List (List UInt8)}
    {before tail : List UInt8} (arrived : arrivals.flatten = before ++ tail)
    (ended : before = [] ∨ before.getLast? = some newline) (nonempty : tail ≠ [])
    (free : newline ∉ tail) (later : List Opening) :
    saidBy (rounds hub (session arrivals :: later)).2 = messagesOf before ++
      (chunksOf pieceLimit tail).map lineOf ++ saidBy (rounds alone later).2 := by
  rw [saidBy_rounds, saidBy_rounds, List.flatMap_cons, lines_session, arrived,
    messagesOf_append ended, messagesOf_tail nonempty free]

/-- To close the pipe after a newline and to open it again makes no difference. -/
theorem rounds_session_append (hub : Hub) {whole first second : List (List UInt8)}
    (arrived : whole.flatten = first.flatten ++ second.flatten)
    (ended : first.flatten = [] ∨ first.flatten.getLast? = some newline) :
    (rounds hub [session whole]).1 = (rounds hub [session first, session second]).1 ∧
      saidBy (rounds hub [session whole]).2 =
        saidBy (rounds hub [session first, session second]).2 := by
  have same : [session whole].flatMap Opening.lines =
      [session first, session second].flatMap Opening.lines := by
    rw [List.flatMap_singleton, List.flatMap_cons, List.flatMap_singleton, lines_session,
      lines_session, lines_session, arrived, messagesOf_append ended]
  exact ⟨by rw [fst_rounds, fst_rounds, same], by rw [saidBy_rounds, saidBy_rounds, same]⟩

/-- A client whose receiver exists gets what every session says on its own, in order and once
for each of its numbers. A path that cannot be opened changes nothing. What follows the last
newline of a session is sent by itself, in one message if it fits, whatever comes in later
rounds. And a session that is divided after a newline into two says and does the same. -/
theorem rounds_forward_sessions_apart (hub alone : Hub) :
    (∀ openings channel, hub.isLive channel = true →
      (rounds hub openings).1.isLive channel = true ∧
      (rounds hub openings).1.entriesOf channel = hub.entriesOf channel ∧
      (rounds hub openings).1.queueOf channel = hub.queueOf channel ++
        (openings.flatMap fun opening => (round alone opening).2.said).flatMap
          (List.replicate (hub.entriesOf channel).length)) ∧
    (∀ arrivals, (round alone (session arrivals)).2.said = messagesOf arrivals.flatten) ∧
    (∀ error, round hub (.failed error) = (hub, .unopened error) ∧
      (Outcome.unopened error).said = []) ∧
    (∀ arrivals before tail later, arrivals.flatten = before ++ tail →
      before = [] ∨ before.getLast? = some newline → tail ≠ [] → newline ∉ tail →
      saidBy (rounds hub (session arrivals :: later)).2 = messagesOf before ++
        (chunksOf pieceLimit tail).map lineOf ++ saidBy (rounds alone later).2 ∧
      (tail.length ≤ pieceLimit → (chunksOf pieceLimit tail).map lineOf = [lineOf tail])) ∧
    ∀ whole first second, whole.flatten = first.flatten ++ second.flatten →
      first.flatten = [] ∨ first.flatten.getLast? = some newline →
      (rounds hub [session whole]).1 = (rounds hub [session first, session second]).1 ∧
      saidBy (rounds hub [session whole]).2 =
        saidBy (rounds hub [session first, session second]).2 := by
  refine ⟨?_, ?_, fun _ => ⟨rfl, rfl⟩, ?_, ?_⟩
  · intro openings channel live
    refine ⟨?_, ?_, queueOf_rounds hub alone live openings⟩
    · rw [fst_rounds, Hub.isLive_broadcastAll, live]
    · rw [fst_rounds, Hub.entriesOf_broadcastAll hub live]
  · intro arrivals
    rw [said_round, lines_session]
  · intro arrivals before tail later arrived ended nonempty free
    refine ⟨saidBy_rounds_tail hub alone arrived ended nonempty free later, fun fits => ?_⟩
    rw [chunksOf_of_length_le nonempty fits, List.map_singleton]
  · intro whole first second arrived ended
    exact rounds_session_append hub arrived ended

/-- One client has two numbers and the other's receiver is gone. The first opening fails, and
the line that ends the first session is not joined with the next. -/
theorem rounds_forward_to_both_numbers :
    let hub := (((((Hub.fresh.openChannel (.named "b")).1.openChannel (.named "a")).1.register
      1 0).register 2 1).register 3 0).dropReceiver 1
    let first := session [[0x61], [0x0A, 0x62]]
    let second := session [[0x63, 0x0A]]
    hub.isLive 0 = true ∧
      (rounds hub [.failed .tooManyLinks, first, second]).1.queueOf 0 =
        ["a", "a", "b", "b", "c", "c"] ∧
      saidBy (rounds hub [first, second]).2 = ["a"] ++ ["b"] ++ ["c"] ∧
      (rounds hub [first]).1 = (rounds hub [session [[0x61, 0x0A]], session [[0x62]]]).1 := by
  intro hub first second
  have live : hub.isLive 0 = true := by decide
  obtain ⟨clients, sessions, _, tails, divided⟩ := rounds_forward_sessions_apart hub .fresh
  have opening : messagesOf [0x61, 0x0A] = ["a"] :=
    map_lineOf_piecesOf (@Written.closed ["a"]) (by decide) (by decide)
  have whole : messagesOf [0x61, 0x0A, 0x62] = ["a", "b"] :=
    map_lineOf_piecesOf (@Written.unclosed ["a"] "b" (by decide)) (by decide) (by decide)
  have closing : messagesOf [0x63, 0x0A] = ["c"] :=
    map_lineOf_piecesOf (@Written.closed ["c"]) (by decide) (by decide)
  have firstSaid : (round .fresh first).2.said = ["a", "b"] := (sessions _).trans whole
  have secondSaid : (round .fresh second).2.said = ["c"] := (sessions _).trans closing
  refine ⟨live, ?_, ?_, (divided _ _ _ rfl (.inr rfl)).1⟩
  · rw [(clients _ 0 live).2.2]
    simp only [List.flatMap_cons, firstSaid, secondSaid]
    rfl
  · obtain ⟨apart, fits⟩ := tails [[0x61], [0x0A, 0x62]] [0x61, 0x0A] [0x62] [second] rfl
      (.inr rfl) (by decide) (by decide)
    rw [apart, fits (by decide), opening, saidBy_rounds, List.flatMap_singleton, lines_session]
    exact congrArg (["a"] ++ ["b"] ++ ·) closing

end PipeCast.Reader
