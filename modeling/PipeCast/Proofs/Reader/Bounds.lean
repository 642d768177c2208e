import PipeCast.Proofs.Reader.Texts

/-!
# What a message can hold

Bounds on the messages of a session, whatever arrives and however it ends. Bytes that encode
nothing count like all others: a fault gives one character, which takes three bytes, and it
neither makes a newline nor hides one.
-/

set_option autoImplicit false

namespace PipeCast.Reader

open Text

/-! ## One message -/

theorem newline_not_mem_decodeLossy {bytes : List UInt8} (free : newline ∉ bytes) :
    '\n' ∉ Utf8.decodeLossy bytes :=
  fun member => free (Utf8.ofNat_mem_of_mem_decodeLossy (by decide) member)

theorem decodeLossy_append_newline (bytes : List UInt8) :
    Utf8.decodeLossy (bytes ++ [newline]) = Utf8.decodeLossy bytes ++ ['\n'] := by
  rw [← encode_newline, Utf8.decodeLossy_append_encode]

theorem newline_not_mem_trimEnd {text : List Char} (free : '\n' ∉ text) : '\n' ∉ trimEnd text := by
  obtain ⟨blanks, split, _⟩ := exists_trimEnd_append text
  intro member
  exact free (split ▸ List.mem_append_left blanks member)

theorem IsPiece.newline_not_mem_lineOf {piece : List UInt8} (isPiece : IsPiece piece) :
    '\n' ∉ (lineOf piece).toList := by
  rw [lineOf, String.toList_ofList, ← List.dropLast_append_getLast isPiece.nonempty]
  by_cases last : piece.getLast isPiece.nonempty = newline
  · rw [last, decodeLossy_append_newline, trimEnd_append_blank _ (by decide)]
    exact newline_not_mem_trimEnd (newline_not_mem_decodeLossy isPiece.single)
  · refine newline_not_mem_trimEnd (newline_not_mem_decodeLossy ?_)
    rw [List.mem_append, List.mem_singleton, not_or]
    exact ⟨isPiece.single, Ne.symm last⟩

theorem length_lineOf_le (piece : List UInt8) : (lineOf piece).toList.length ≤ piece.length := by
  rw [lineOf, String.toList_ofList]
  exact (length_trimEnd_le _).trans (Utf8.length_decodeLossy_le piece)

theorem length_bytesOf_lineOf_le (piece : List UInt8) :
    (Utf8.bytesOf (lineOf piece)).length ≤ 3 * piece.length := by
  obtain ⟨blanks, split, _⟩ := exists_trimEnd_append (Utf8.decodeLossy piece)
  have whole := congrArg (fun text => (Utf8.encode text).length) split
  have bound := Utf8.length_encode_decodeLossy_le piece
  simp only [Utf8.encode_append, List.length_append] at whole
  rw [Utf8.bytesOf, lineOf, String.toList_ofList]
  omega

/-! ## How many messages -/

theorem length_le_length_flatten {pieces : List (List UInt8)}
    (arePieces : ∀ piece ∈ pieces, IsPiece piece) : pieces.length ≤ pieces.flatten.length := by
  induction pieces with
  | nil => exact Nat.le_refl 0
  | cons piece pieces ih =>
      obtain ⟨first, others⟩ := List.forall_mem_cons.mp arePieces
      have taken := List.length_pos_iff.mpr first.nonempty
      have later := ih others
      rw [List.length_cons, List.flatten_cons, List.length_append]
      omega

theorem count_newline_flatten_le {pieces : List (List UInt8)}
    (arePieces : ∀ piece ∈ pieces, IsPiece piece) :
    pieces.flatten.count newline ≤ pieces.countP isComplete := by
  induction pieces with
  | nil => exact Nat.le_refl 0
  | cons piece pieces ih =>
      obtain ⟨first, others⟩ := List.forall_mem_cons.mp arePieces
      have ended := first.count_newline_le
      have later := ih others
      rw [List.flatten_cons, List.count_append, List.countP_cons]
      cases complete : isComplete piece <;> simp [complete] at ended ⊢ <;> omega

/-- Whatever arrives in a session, and whether or not an error ends it, no message holds a
newline or ends with a blank, and none has more characters than a piece may have bytes, or
takes more than three times as many bytes. There are at least as many messages as newlines
arrived, and at most as many as bytes. -/
theorem messages_within_bounds (hub : Hub) (source : Source) :
    ∃ (final : Hub) (messages : List String) (reports : List Hub.Report),
      round hub (.opened source) =
        (final, .ended messages.length messages reports source.failure) ∧
      forwardAll hub messages = (final, reports) ∧
      (∀ message ∈ messages,
        '\n' ∉ message.toList ∧
        (∀ last, message.toList.getLast? = some last → isBlank last = false) ∧
        message.toList.length ≤ pieceLimit ∧
        (Utf8.bytesOf message).length ≤ 3 * pieceLimit) ∧
      source.arrivals.flatten.count newline ≤ messages.length ∧
      messages.length ≤ source.arrivals.flatten.length := by
  have arePieces : ∀ piece ∈ piecesOf source.arrivals.flatten, IsPiece piece :=
    fun _ member => isPiece_of_mem_piecesOf member
  have whole : (piecesOf source.arrivals.flatten).flatten = source.arrivals.flatten :=
    flatten_piecesOf _
  refine ⟨_, _, _, round_opened hub source, rfl, ?_, ?_, ?_⟩
  · intro message member
    obtain ⟨piece, given, rfl⟩ := List.mem_map.mp member
    rw [Source.pieces_eq_filter] at given
    have isPiece := arePieces piece (List.mem_filter.mp given).1
    obtain ⟨_, _, _, solid⟩ := exists_trimEnd_append (Utf8.decodeLossy piece)
    refine ⟨isPiece.newline_not_mem_lineOf, ?_, ?_, ?_⟩
    · rw [lineOf, String.toList_ofList]
      exact solid
    · exact (length_lineOf_le piece).trans isPiece.within
    · exact (length_bytesOf_lineOf_le piece).trans (Nat.mul_le_mul_left 3 isPiece.within)
  · rw [Opening.lines, List.length_map, Source.pieces_eq_filter, ← List.countP_eq_length_filter]
    have newlines := count_newline_flatten_le arePieces
    rw [whole] at newlines
    refine newlines.trans (List.countP_mono_left fun piece _ complete => ?_)
    rw [complete, Bool.or_true]
  · rw [Opening.lines, List.length_map, Source.pieces_eq_filter]
    have pieces := length_le_length_flatten arePieces
    rw [whole] at pieces
    exact (List.length_filter_le ..).trans pieces

end PipeCast.Reader
