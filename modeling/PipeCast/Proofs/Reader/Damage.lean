import PipeCast.Proofs.Reader.Cuts

/-!
# Bytes that encode nothing

A line may hold bytes that encode nothing: beginnings of sequences, bytes that continue none,
surrogates, overlong forms. What stands before and after them on the line is read as if they
were not there, and so are the lines before and after it.
-/

set_option autoImplicit false

namespace PipeCast.Reader

open Text

/-! ## Sessions that are divided after a newline -/

theorem Source.pieces_append {whole first second : List (List UInt8)} (failure : Option IoError)
    (arrived : whole.flatten = first.flatten ++ second.flatten)
    (ended : first.flatten = [] ∨ first.flatten.getLast? = some newline) :
    Source.pieces ⟨whole, failure⟩ =
      Source.pieces ⟨first, failure⟩ ++ Source.pieces ⟨second, failure⟩ := by
  simp only [Source.pieces_eq_filter, arrived, piecesOf_append_of_ended ended, List.filter_append]

/-- A line that fits into a piece is forwarded even if an error follows it. -/
theorem Source.pieces_of_isWhole {piece : List UInt8} (failure : Option IoError)
    (whole : IsWhole pieceLimit piece) : Source.pieces ⟨[piece], failure⟩ = [piece] := by
  have pieces := piecesOf_append whole []
  rw [List.append_nil, show piecesOf [] = [] from rfl] at pieces
  rw [Source.pieces_eq_filter, List.flatten_singleton, pieces]
  refine List.filter_eq_self.mpr fun other member => ?_
  rw [List.mem_singleton.mp member, whole.isComplete, Bool.or_true]

/-! ## A damaged line -/

theorem decodeLossy_damaged (first last : List Char) (damaged : List UInt8) :
    Utf8.decodeLossy (Utf8.encode first ++ damaged ++ Utf8.encode last) =
      first ++ Utf8.decodeLossy damaged ++ last := by
  rw [Utf8.decodeLossy_append_encode, Utf8.decodeLossy_encode_append]

theorem lineOf_damaged (first last : String) (damaged : List UInt8) :
    lineOf (Utf8.bytesOf first ++ damaged ++ Utf8.bytesOf last ++ [newline]) =
      String.ofList (trimEnd (first ++ Utf8.readLossy damaged ++ last).toList) := by
  rw [lineOf, ← encode_newline, Utf8.decodeLossy_append_encode, Utf8.bytesOf, Utf8.bytesOf,
    decodeLossy_damaged, trimEnd_append_blank _ (by decide), String.toList_append,
    String.toList_append, Utf8.readLossy, String.toList_ofList]

theorem isWhole_damaged {first last : String} {damaged : List UInt8}
    (single : '\n' ∉ first.toList) (singleToo : '\n' ∉ last.toList) (free : newline ∉ damaged)
    (within : (Utf8.bytesOf first ++ damaged ++ Utf8.bytesOf last ++ [newline]).length ≤
      pieceLimit) :
    IsWhole pieceLimit (Utf8.bytesOf first ++ damaged ++ Utf8.bytesOf last ++ [newline]) := by
  refine .inl ⟨_, ?_, rfl, within⟩
  rw [List.mem_append, List.mem_append, not_or, not_or]
  exact ⟨⟨newline_not_mem_bytesOf single, free⟩, newline_not_mem_bytesOf singleToo⟩

/-- Bytes that may encode nothing, with texts before and after them on a line that fits into a
piece, are one message with those texts in it as they are. It is what each part says on its
own, and every byte in between gives at most one character. The other lines of the session say
what they say without this one. -/
theorem damage_stays_within (hub : Hub) {source : Source} {before damaged after : List UInt8}
    {first last : String}
    (arrived : source.arrivals.flatten =
      before ++ (Utf8.bytesOf first ++ damaged ++ Utf8.bytesOf last ++ [newline]) ++ after)
    (starts : before = [] ∨ before.getLast? = some newline)
    (single : '\n' ∉ first.toList) (singleToo : '\n' ∉ last.toList) (free : newline ∉ damaged)
    (within : (Utf8.bytesOf first ++ damaged ++ Utf8.bytesOf last ++ [newline]).length ≤
      pieceLimit) :
    ∃ (final : Hub) (earlier later : List String) (message : String)
      (reports : List Hub.Report),
      round hub (.opened source) =
        (final, .ended (earlier ++ [message] ++ later).length (earlier ++ [message] ++ later)
          reports source.failure) ∧
      forwardAll hub (earlier ++ [message] ++ later) = (final, reports) ∧
      message = String.ofList (trimEnd (first ++ Utf8.readLossy damaged ++ last).toList) ∧
      earlier = (Opening.opened ⟨[before], source.failure⟩).lines ∧
      later = (Opening.opened ⟨[after], source.failure⟩).lines ∧
      (damaged ≠ [] → 1 ≤ (Utf8.readLossy damaged).toList.length ∧
        (Utf8.readLossy damaged).toList.length ≤ damaged.length) := by
  obtain ⟨arrivals, failure⟩ := source
  have whole := isWhole_damaged single singleToo free within
  have message := lineOf_damaged first last damaged
  have ends : (Utf8.bytesOf first ++ damaged ++ Utf8.bytesOf last ++ [newline]).getLast? =
      some newline := by simp
  generalize Utf8.bytesOf first ++ damaged ++ Utf8.bytesOf last ++ [newline] = line at *
  have pieces : Source.pieces ⟨arrivals, failure⟩ = Source.pieces ⟨[before], failure⟩ ++ [line] ++
      Source.pieces ⟨[after], failure⟩ := by
    have cut : arrivals.flatten = [before].flatten ++ [line ++ after].flatten := by
      simpa using arrived
    have cutAgain : [line ++ after].flatten = [line].flatten ++ [after].flatten := by simp
    rw [Source.pieces_append failure cut (by simpa using starts),
      Source.pieces_append failure cutAgain (.inr (by simpa using ends)),
      Source.pieces_of_isWhole failure whole, List.append_assoc]
  have lines : (Opening.opened ⟨arrivals, failure⟩).lines =
      (Opening.opened ⟨[before], failure⟩).lines ++ [lineOf line] ++
        (Opening.opened ⟨[after], failure⟩).lines := by
    simp only [Opening.lines, pieces, List.map_append, List.map_singleton]
  have ended := round_opened hub ⟨arrivals, failure⟩
  rw [lines] at ended
  refine ⟨_, _, _, _, _, ended, rfl, message, rfl, rfl, fun nonempty => ?_⟩
  rw [Utf8.readLossy, String.toList_ofList]
  exact ⟨Utf8.length_decodeLossy_pos nonempty, Utf8.length_decodeLossy_le damaged⟩

/-- A byte that continues nothing after one character and a sequence that is cut short by
another, between two lines. -/
theorem damage_between_lines :
    ∃ (final : Hub) (messages : List String) (reports : List Hub.Report),
      round .fresh (.opened ⟨[[0x61, 0x0A, 0xC3], [0xA9, 0x80, 0xF0, 0x9F],
        [0x98, 0xC3, 0xBC, 0x0A, 0x62, 0x0A]], none⟩) =
          (final, .ended messages.length messages reports none) ∧
      messages = ["a", "é\uFFFD\uFFFDü", "b"] ∧
      1 ≤ (Utf8.readLossy [0x80, 0xF0, 0x9F, 0x98]).toList.length := by
  have line : ∀ text : String, '\n' ∉ text.toList → (Utf8.bytesOf text).length ≤ pieceLimit - 1 →
      (Opening.opened ⟨[terminated text], none⟩).lines =
        [String.ofList (trimEnd text.toList)] := by
    intro text single within
    have written := @Written.closed [text]
    rw [List.flatMap_singleton] at written
    rw [Opening.lines, Source.pieces_eq_piecesOf rfl, List.flatten_singleton]
    exact map_lineOf_piecesOf written (by simpa using single) (by simpa using within)
  obtain ⟨final, earlier, later, message, reports, ended, _, rfl, rfl, rfl, bounds⟩ :=
    @damage_stays_within .fresh
      ⟨[[0x61, 0x0A, 0xC3], [0xA9, 0x80, 0xF0, 0x9F], [0x98, 0xC3, 0xBC, 0x0A, 0x62, 0x0A]], none⟩
      (terminated "a") [0x80, 0xF0, 0x9F, 0x98] (terminated "b") "é" "ü" (by decide)
      (.inr (by decide)) (by decide) (by decide) (by decide) (by decide)
  refine ⟨final, _, reports, ended, ?_, (bounds (by decide)).1⟩
  rw [line "a" (by decide) (by decide), line "b" (by decide) (by decide)]
  decide

end PipeCast.Reader
