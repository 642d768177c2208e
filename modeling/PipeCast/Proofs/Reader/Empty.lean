import PipeCast.Proofs.Reader.Cuts

/-!
# Empty messages

A piece becomes an empty message exactly if it is the encoding of blanks. The line that it
is a part of need not be blank: the limit counts the newline, so a line can be full before
its newline comes, and blanks inside a long line can fill a piece.
-/

set_option autoImplicit false

namespace PipeCast.Reader

open Text

theorem mem_chunksOf_iff {size : Nat} (positive : 0 < size) {bytes chunk : List UInt8} :
    chunk ∈ chunksOf size bytes ↔
      ∃ count, count * size < bytes.length ∧ chunk = (bytes.drop (count * size)).take size := by
  induction bytes using chunksOf.induct size with
  | case1 => simp [chunksOf]
  | case2 byte rest ih =>
      have dropped : (byte :: rest).drop size = rest.drop (size - 1) := by
        obtain ⟨before, rfl⟩ := Nat.exists_eq_succ_of_ne_zero (Nat.ne_of_gt positive)
        rfl
      rw [chunksOf_eq_cons positive (List.cons_ne_nil byte rest), List.mem_cons, dropped, ih, ← dropped]
      constructor
      · rintro (first | ⟨count, begins, later⟩)
        · exact ⟨0, by simp, by rw [first, Nat.zero_mul, List.drop_zero]⟩
        · refine ⟨count + 1, ?_, ?_⟩
          · rw [List.length_drop] at begins
            rw [Nat.succ_mul]
            omega
          · rw [later, List.drop_drop, Nat.succ_mul, Nat.add_comm]
      · rintro ⟨count, begins, same⟩
        cases count with
        | zero =>
            left
            rw [same, Nat.zero_mul, List.drop_zero]
        | succ count =>
            right
            refine ⟨count, ?_, ?_⟩
            · rw [Nat.succ_mul] at begins
              rw [List.length_drop]
              omega
            · rw [same, List.drop_drop, Nat.succ_mul, Nat.add_comm]

/-- Only the encoding of blanks is an empty line: a fault is no blank. -/
theorem lineOf_eq_empty_iff {piece : List UInt8} :
    lineOf piece = "" ↔
      ∃ blanks, piece = Utf8.encode blanks ∧ ∀ character ∈ blanks, isBlank character = true := by
  rw [← String.toList_eq_nil_iff, lineOf, String.toList_ofList, trimEnd_eq_nil_iff]
  constructor
  · intro blank
    have sound : ∀ item ∈ Utf8.decode piece, item ≠ none := by
      rintro item member rfl
      have fault := blank _ (List.mem_map.mpr ⟨none, member, rfl⟩)
      exact absurd fault (by decide)
    refine ⟨Utf8.decodeLossy piece, Utf8.encode_of_decode ?_, blank⟩
    rw [Utf8.decodeLossy, List.map_map]
    refine (List.map_id _).symm.trans (List.map_congr_left fun item member => ?_)
    obtain ⟨character, rfl⟩ := Option.ne_none_iff_exists'.mp (sound item member)
    rfl
  · rintro ⟨blanks, rfl, blank⟩
    rwa [Utf8.decodeLossy_encode]

/-- An empty message is a part of a line that begins at a multiple of the limit and holds
nothing but blanks. Where every line has something that is not blank, the line of an empty
message is longer than a piece. -/
theorem mem_empty_iff_blank_part (hub : Hub) (arrivals : List (List UInt8)) :
    ∃ (final : Hub) (messages : List String) (reports : List Hub.Report),
      round hub (.opened ⟨arrivals, none⟩) =
        (final, .ended messages.length messages reports none) ∧
      ("" ∈ messages ↔
        ∃ line ∈ linesOf arrivals.flatten, ∃ count, count * pieceLimit < line.length ∧
          ∃ blanks, (line.drop (count * pieceLimit)).take pieceLimit = Utf8.encode blanks ∧
            ∀ character ∈ blanks, isBlank character = true) ∧
      ("" ∈ messages →
        (∃ line ∈ linesOf arrivals.flatten,
          ∀ character ∈ Utf8.decodeLossy line, isBlank character = true) ∨
        ∃ line ∈ linesOf arrivals.flatten, pieceLimit < line.length) := by
  have parts : "" ∈ (piecesOf arrivals.flatten).map lineOf ↔
      ∃ line ∈ linesOf arrivals.flatten, ∃ count, count * pieceLimit < line.length ∧
        ∃ blanks, (line.drop (count * pieceLimit)).take pieceLimit = Utf8.encode blanks ∧
          ∀ character ∈ blanks, isBlank character = true := by
    rw [List.mem_map, piecesOf]
    constructor
    · rintro ⟨piece, member, empty⟩
      obtain ⟨line, given, chunk⟩ := List.mem_flatMap.mp member
      obtain ⟨count, begins, rfl⟩ := (mem_chunksOf_iff (by decide)).mp chunk
      exact ⟨line, given, count, begins, lineOf_eq_empty_iff.mp empty⟩
    · rintro ⟨line, given, count, begins, blank⟩
      refine ⟨_, List.mem_flatMap.mpr ⟨line, given, ?_⟩, lineOf_eq_empty_iff.mpr blank⟩
      exact (mem_chunksOf_iff (by decide)).mpr ⟨count, begins, rfl⟩
  refine ⟨_, _, _, round_ended hub arrivals, parts, fun empty => ?_⟩
  obtain ⟨line, given, count, begins, blanks, part, blank⟩ := parts.mp empty
  rcases Nat.lt_or_ge pieceLimit line.length with long | short
  · exact .inr ⟨line, given, long⟩
  · left
    have first : count = 0 := by
      rcases Nat.eq_zero_or_pos count with zero | positive
      · exact zero
      · have least := Nat.le_mul_of_pos_left pieceLimit positive
        omega
    rw [first, Nat.zero_mul, List.drop_zero, List.take_of_length_le short] at part
    refine ⟨line, given, ?_⟩
    rwa [part, Utf8.decodeLossy_encode]

theorem piecesOf_newline : piecesOf [newline] = [[newline]] :=
  piecesOf_append (.inl ⟨[], by decide, rfl, by decide⟩ : IsWhole pieceLimit [newline]) []

theorem full_line_adds_empty_message :
    (∀ line ∈ linesOf (List.replicate 65536 0x61 ++ [newline]),
      ∃ character ∈ Utf8.decodeLossy line, isBlank character = false) ∧
    ∃ (final : Hub) (messages : List String) (reports : List Hub.Report),
      round .fresh (.opened ⟨[List.replicate 65536 0x61 ++ [newline]], none⟩) =
        (final, .ended messages.length messages reports none) ∧
      messages = [String.ofList (List.replicate 65536 'a'), ""] := by
  have encoded : Utf8.encode (List.replicate 65536 'a') = List.replicate 65536 0x61 :=
    Utf8.encode_replicate 65536 (by decide)
  have free : newline ∉ List.replicate 65536 0x61 :=
    fun member => absurd (List.eq_of_mem_replicate member) (by decide)
  have lines := linesOf_append_newline free []
  rw [List.append_nil, show linesOf [] = [] from rfl] at lines
  have pieces := piecesOf_append (.inr ⟨free, List.length_replicate⟩) [newline]
  rw [piecesOf_newline] at pieces
  have ended := round_ended .fresh [List.replicate 65536 0x61 ++ [newline]]
  have said : lineOf (List.replicate 65536 0x61) = String.ofList (List.replicate 65536 'a') := by
    rw [← encoded, lineOf_encode, trimEnd_replicate _ (by decide)]
  rw [List.flatten_singleton, pieces, List.map_cons, said] at ended
  refine ⟨?_, _, _, _, ended, rfl⟩
  intro line given
  rw [lines, List.mem_singleton] at given
  refine ⟨'a', ?_, by decide⟩
  rw [given, ← encoded, Utf8.decodeLossy_encode_append, List.mem_append, List.mem_replicate]
  exact .inl ⟨by decide, rfl⟩

end PipeCast.Reader
