import PipeCast.Proofs.Reader.Pieces

/-!
# What a session forwards

A session forwards one line for each of its pieces, each line by a broadcast of its
own. Where the input ends without an error, every byte that arrived belongs to a
piece, and how the bytes were divided into reads cannot be seen.
-/

set_option autoImplicit false

namespace PipeCast.Reader

open Text

/-! ## Pieces of a session -/

private theorem exists_pieces (source : Source) :
    ∃ pieces : List (List UInt8),
      pieces = (piecesOf source.arrivals.flatten).filter
        (fun piece => source.failure.isNone || isComplete piece) ∧
      ∀ {State : Type} (act : State → List UInt8 → State) (state : State),
        source.onPieces act state = pieces.foldl act state := by
  obtain ⟨whole, rest, areWhole, free, short, split, loop⟩ :=
    onPieces_eq_foldl source.arrivals
  have all : piecesOf source.arrivals.flatten = whole ++ lastPiece rest := by
    rw [split, piecesOf_whole_append areWhole, piecesOf_eq_lastPiece free short]
  cases failed : source.failure with
  | none =>
      refine ⟨whole ++ lastPiece rest, ?_, ?_⟩
      · rw [all]
        exact (List.filter_eq_self.mpr fun _ _ => rfl).symm
      · intro State act state
        rw [Source.onPieces, loop, failed, List.foldl_append]
        cases rest with
        | nil => rfl
        | cons byte others => rfl
  | some error =>
      refine ⟨whole, ?_, ?_⟩
      · change whole = (piecesOf source.arrivals.flatten).filter isComplete
        rw [all, filter_isComplete_append_lastPiece areWhole free short]
      · intro State act state
        rw [Source.onPieces, loop, failed]
        cases rest with
        | nil => rfl
        | cons byte others => rfl

private theorem eq_pieces {source : Source} {pieces : List (List UInt8)}
    (loop : ∀ {State : Type} (act : State → List UInt8 → State) (state : State),
      source.onPieces act state = pieces.foldl act state) : pieces = source.pieces := by
  rw [Source.pieces, loop, List.foldl_flip_cons_eq_append', List.append_nil, List.reverse_reverse]

/-- A session acts on its pieces and on nothing else. -/
theorem Source.onPieces_eq_foldl_pieces {State : Type} (source : Source)
    (act : State → List UInt8 → State) (state : State) :
    source.onPieces act state = source.pieces.foldl act state := by
  obtain ⟨pieces, _, loop⟩ := exists_pieces source
  rw [← eq_pieces loop, loop]

/-- The pieces of a session are those of the bytes that arrived, without one that an error
has interrupted. -/
theorem Source.pieces_eq_filter (source : Source) :
    source.pieces = (piecesOf source.arrivals.flatten).filter
      fun piece => source.failure.isNone || isComplete piece := by
  obtain ⟨pieces, same, loop⟩ := exists_pieces source
  rw [← eq_pieces loop, same]

/-- Without an error the pieces of a session are those of the bytes that arrived. -/
theorem Source.pieces_eq_piecesOf {source : Source} (ended : source.failure = none) :
    source.pieces = piecesOf source.arrivals.flatten := by
  rw [Source.pieces_eq_filter, ended]
  exact List.filter_eq_self.mpr fun _ _ => rfl

/-! ## Lines -/

def forwardAll (hub : Hub) : List String → Hub × List Hub.Report
  | [] => (hub, [])
  | line :: rest =>
      let (hub, report) := hub.broadcast (.line line)
      let (final, reports) := forwardAll hub rest
      (final, report :: reports)

theorem length_forwardAll (hub : Hub) (lines : List String) :
    (forwardAll hub lines).2.length = lines.length := by
  induction lines generalizing hub with
  | nil => rfl
  | cons line rest ih => simp only [forwardAll, List.length_cons, ih]

theorem foldl_forward (pieces : List (List UInt8)) (account : Account) :
    pieces.foldl Account.forward account =
      ⟨(forwardAll account.hub (pieces.map lineOf)).1,
        account.forwarded + pieces.length,
        (pieces.map lineOf).reverse ++ account.said,
        (forwardAll account.hub (pieces.map lineOf)).2.reverse ++ account.sent⟩ := by
  induction pieces generalizing account with
  | nil => rfl
  | cons piece rest ih =>
      have counted (before : Nat) : before + 1 + rest.length = before + (rest.length + 1) := by
        omega
      rw [List.foldl_cons, ih]
      simp [Account.forward, forwardAll, counted]

/-- A round sends the lines of its session and counts them, whether or not an error ends
it. -/
theorem round_opened (hub : Hub) (source : Source) :
    round hub (.opened source) =
      ((forwardAll hub (Opening.opened source).lines).1,
        .ended (Opening.opened source).lines.length (Opening.opened source).lines
          (forwardAll hub (Opening.opened source).lines).2 source.failure) := by
  rw [round, Source.onPieces_eq_foldl_pieces, foldl_forward]
  simp [Opening.lines]

/-- A round whose input ends without an error sends one message for each piece of the
bytes that arrived, in order, returns the number of pieces and leaves no byte behind.
How the bytes were divided into reads makes no difference. -/
theorem round_forwards_piecesOf (hub : Hub) (arrivals : List (List UInt8)) :
    let pieces := piecesOf arrivals.flatten
    let lines := pieces.map fun piece => String.ofList (trimEnd (Utf8.decodeLossy piece))
    round hub (.opened ⟨arrivals, none⟩) =
        ((forwardAll hub lines).1,
          .ended pieces.length lines (forwardAll hub lines).2 none) ∧
      lines.length = pieces.length ∧ (forwardAll hub lines).2.length = pieces.length ∧
      pieces.flatten = arrivals.flatten ∧
      round hub (.opened ⟨arrivals, none⟩) = round hub (.opened ⟨[arrivals.flatten], none⟩) := by
  intro pieces lines
  have counted : lines.length = pieces.length := List.length_map _
  have sends : ∀ reads : List (List UInt8), reads.flatten = arrivals.flatten →
      round hub (.opened ⟨reads, none⟩) =
        ((forwardAll hub lines).1,
          .ended pieces.length lines (forwardAll hub lines).2 none) := by
    intro reads same
    have found : (Opening.opened ⟨reads, none⟩).lines = lines := by
      rw [Opening.lines, Source.pieces_eq_piecesOf rfl]
      exact congrArg (fun bytes => (piecesOf bytes).map lineOf) same
    rw [round_opened, found, counted]
  refine ⟨sends arrivals rfl, counted, ?_, flatten_piecesOf _, ?_⟩
  · rw [length_forwardAll, counted]
  · rw [sends arrivals rfl, sends [arrivals.flatten] (by simp)]

end PipeCast.Reader
