import PipeCast.Proofs.Reader.Rounds

/-!
# Sessions that an error ends

An error loses the bytes of the piece that it interrupts, and nothing else: what was complete
before it has been sent, and the next session does not see what was not. A read that was
interrupted by a signal is no such error.
-/

set_option autoImplicit false

namespace PipeCast.Reader

open Text

theorem Source.ofReads_append_error {reads : List Read} {error : IoError}
    (retried : ∀ other, .error other ∈ reads → other.kind = .interrupted)
    (real : error.kind ≠ .interrupted) (unread : List Read) :
    Source.ofReads (reads ++ .error error :: unread) =
      ⟨reads.filterMap Except.toOption, some error⟩ := by
  induction reads with
  | nil => rw [List.nil_append, Source.ofReads, if_neg real]; rfl
  | cons read reads ih =>
      have later := ih fun other member => retried other (List.mem_cons_of_mem _ member)
      cases read with
      | ok arrival =>
          rw [List.cons_append, Source.ofReads, later]
          rfl
      | error other =>
          rw [List.cons_append, Source.ofReads, if_pos (retried other List.mem_cons_self), later]
          rfl

theorem flatten_lastPiece (rest : List UInt8) : (lastPiece rest).flatten = rest := by
  rw [lastPiece]
  split
  · rename_i empty
    rw [empty, List.flatten_nil]
  · exact List.flatten_singleton

theorem map_lineOf_lastPiece (rest : List UInt8) :
    (lastPiece rest).map lineOf = if rest = [] then [] else [lineOf rest] := by
  rw [lastPiece]
  split <;> rfl

/-- The pieces of a session that an error ends are those that were complete before it, and the
bytes after the last of them are the beginning of another. -/
theorem exists_unfinished (bytes : List UInt8) :
    let complete := (piecesOf bytes).filter isComplete
    ∃ rest, piecesOf bytes = complete ++ lastPiece rest ∧ bytes = complete.flatten ++ rest ∧
      (∀ piece ∈ complete, IsWhole pieceLimit piece) ∧ newline ∉ rest ∧
      rest.length < pieceLimit := by
  intro complete
  obtain ⟨whole, rest, areWhole, free, short, pieces⟩ := exists_whole_pieces bytes
  have same : complete = whole := by
    rw [← filter_isComplete_append_lastPiece areWhole free short, ← pieces]
  rw [same]
  refine ⟨rest, pieces, ?_, areWhole, free, short⟩
  rw [← flatten_piecesOf bytes, pieces, List.flatten_append, flatten_lastPiece]

/-- A session that an error ends has sent one message for each piece that was complete before,
in order, and returns how many there were. Had the input ended there, the bytes left would have been one
message more, if there are any. No later session sees them. Reads that were interrupted make no
difference. -/
theorem error_forwards_complete_pieces (hub alone : Hub) {reads : List Read} {error : IoError}
    (retried : ∀ other, .error other ∈ reads → other.kind = .interrupted)
    (real : error.kind ≠ .interrupted) (unread : List Read) :
    let arrived := (reads.filterMap Except.toOption).flatten
    let complete := (piecesOf arrived).filter isComplete
    let failing := Opening.opened (.ofReads (reads ++ .error error :: unread))
    ∃ (rest : List UInt8) (final : Hub) (reports : List Hub.Report),
      arrived = complete.flatten ++ rest ∧
      (∀ piece ∈ complete, IsWhole pieceLimit piece) ∧ newline ∉ rest ∧
      rest.length < pieceLimit ∧
      round hub failing =
        (final, .ended complete.length (complete.map lineOf) reports (some error)) ∧
      forwardAll hub (complete.map lineOf) = (final, reports) ∧
      reports.length = complete.length ∧
      (∀ arrivals, arrivals.flatten = arrived →
        (round hub (session arrivals)).2.said =
          complete.map lineOf ++ if rest = [] then [] else [lineOf rest]) ∧
      ∀ later, saidBy (rounds hub (failing :: later)).2 =
        complete.map lineOf ++ saidBy (rounds alone later).2 := by
  intro arrived complete failing
  have source : failing = .opened ⟨reads.filterMap Except.toOption, some error⟩ :=
    congrArg Opening.opened (Source.ofReads_append_error retried real unread)
  obtain ⟨rest, all, split, areWhole, free, short⟩ := exists_unfinished arrived
  have lines : failing.lines = complete.map lineOf := by
    rw [source, Opening.lines, Source.pieces_eq_filter]
    rfl
  refine ⟨rest, _, _, split, areWhole, free, short, ?_, rfl, ?_, ?_, ?_⟩
  · have counted : complete.length = failing.lines.length := by rw [lines, List.length_map]
    rw [counted, ← lines, source]
    exact round_opened hub _
  · rw [length_forwardAll, List.length_map]
  · intro arrivals same
    rw [said_round, lines_session, same, messagesOf, all, List.map_append, map_lineOf_lastPiece]
  · intro later
    rw [saidBy_rounds, saidBy_rounds, List.flatMap_cons, lines]

/-- The second line has begun in one read, and a newline would have come in the read after the
one that fails. -/
theorem error_forwards_first_line :
    let reads : List Read := [.ok [0x61], .error (.system 4), .ok [0x0A, 0x62]]
    let failing := Opening.opened (.ofReads (reads ++ [.error (.system 5), .ok [0x0A]]))
    (∀ other, .error other ∈ reads → other.kind = .interrupted) ∧
      (IoError.system 5).kind ≠ .interrupted ∧
      saidBy (rounds .fresh [failing, session [[0x63, 0x0A]]]).2 = ["a", "c"] ∧
      (round .fresh (session [[0x61, 0x0A, 0x62]])).2.said = ["a", "b"] := by
  intro reads failing
  have retried : ∀ other, .error other ∈ reads → other.kind = .interrupted := by
    intro other member
    simp only [reads, List.mem_cons, reduceCtorEq, Except.error.injEq, List.not_mem_nil,
      false_or, or_false] at member
    rw [member]
    decide
  have real : (IoError.system 5).kind ≠ .interrupted := by decide
  have complete : (piecesOf (reads.filterMap Except.toOption).flatten).filter isComplete =
      [[0x61, 0x0A]] := by
    have line : IsWhole pieceLimit [0x61, 0x0A] := .inl ⟨[0x61], by decide, rfl, by decide⟩
    rw [show (reads.filterMap Except.toOption).flatten = [0x61, 0x0A] ++ [0x62] from rfl,
      piecesOf_append line, piecesOf_eq_lastPiece (by decide) (by decide)]
    decide
  obtain ⟨rest, _, _, split, _, _, _, _, _, _, whole, later⟩ :=
    error_forwards_complete_pieces .fresh .fresh retried real [.ok [0x0A]]
  rw [complete] at split whole later
  have left : rest = [0x62] := (List.cons.inj (List.cons.inj split).2).2.symm
  have closing : messagesOf [0x63, 0x0A] = ["c"] :=
    map_lineOf_piecesOf (@Written.closed ["c"]) (by decide) (by decide)
  refine ⟨retried, real, ?_, ?_⟩
  · rw [later, saidBy_rounds, List.flatMap_singleton, lines_session]
    exact congrArg (["a"] ++ ·) closing
  · rw [whole [[0x61, 0x0A, 0x62]] rfl, left]
    decide

end PipeCast.Reader
