import Mathlib.Data.List.SplitBy
import PipeCast.Reader.Session

/-!
# How a byte stream falls into pieces

The pieces of a session in two levels: the bytes are cut after every newline, and
each line is cut into chunks of the greatest size allowed. The reader's loop, which
applies the limit afresh to whatever arrives, comes to the same pieces, and in what
portions the bytes arrive makes no difference.
-/

set_option autoImplicit false

namespace PipeCast.Reader

/-! ## Lines and chunks -/

/-- Bytes cut after every newline. -/
def linesOf (bytes : List UInt8) : List (List UInt8) :=
  bytes.splitBy fun byte _ => byte != newline

/-- Bytes cut into consecutive chunks of a size; the last may be shorter. -/
def chunksOf (size : Nat) : List UInt8 → List (List UInt8)
  | [] => []
  | byte :: rest => (byte :: rest.take (size - 1)) :: chunksOf size (rest.drop (size - 1))
  termination_by bytes => bytes.length
  decreasing_by
    simp only [List.length_drop, List.length_cons]
    omega

/-- The lines of a session, each cut into chunks of the greatest size allowed. -/
def piecesOf (bytes : List UInt8) : List (List UInt8) :=
  (linesOf bytes).flatMap (chunksOf pieceLimit)

theorem chunksOf_append {size : Nat} {chunk : List UInt8} (full : chunk.length = size)
    (positive : 0 < size) (rest : List UInt8) :
    chunksOf size (chunk ++ rest) = chunk :: chunksOf size rest := by
  cases chunk with
  | nil =>
      simp only [List.length_nil] at full
      omega
  | cons byte others =>
      have shorter : others.length = size - 1 := by
        simp only [List.length_cons] at full
        omega
      rw [List.cons_append, chunksOf, List.take_left' shorter, List.drop_left' shorter]

theorem chunksOf_of_length_le {size : Nat} {chunk : List UInt8} (nonempty : chunk ≠ [])
    (within : chunk.length ≤ size) : chunksOf size chunk = [chunk] := by
  cases chunk with
  | nil => exact absurd rfl nonempty
  | cons byte others =>
      have shorter : others.length ≤ size - 1 := by
        simp only [List.length_cons] at within
        omega
      rw [chunksOf, List.take_of_length_le shorter, List.drop_of_length_le shorter, chunksOf]

theorem flatten_chunksOf (size : Nat) (bytes : List UInt8) :
    (chunksOf size bytes).flatten = bytes := by
  induction bytes using chunksOf.induct size with
  | case1 => simp [chunksOf]
  | case2 byte rest ih =>
      rw [chunksOf, List.flatten_cons, ih, List.cons_append, List.take_append_drop]

/-- No byte is lost or moved by cutting. -/
theorem flatten_piecesOf (bytes : List UInt8) : (piecesOf bytes).flatten = bytes := by
  have lines : (linesOf bytes).flatten = bytes := List.flatten_splitBy _ _
  have cut : ∀ parts : List (List UInt8),
      (parts.flatMap (chunksOf pieceLimit)).flatten = parts.flatten := by
    intro parts
    induction parts with
    | nil => rfl
    | cons part parts ih =>
        rw [List.flatMap_cons, List.flatten_append, flatten_chunksOf, ih, List.flatten_cons]
  rw [piecesOf, cut, lines]

theorem isChain_of_newline_not_mem {bytes : List UInt8} (last : UInt8)
    (free : newline ∉ bytes) :
    (bytes ++ [last]).IsChain fun byte _ => (byte != newline) = true := by
  induction bytes with
  | nil => exact .singleton _
  | cons byte rest ih =>
      simp only [List.mem_cons, not_or] at free
      have chained := ih free.2
      rw [List.cons_append]
      refine List.isChain_cons.mpr ⟨?_, chained⟩
      intro _ _
      simpa using Ne.symm free.1

theorem linesOf_append_newline {body : List UInt8} (free : newline ∉ body)
    (rest : List UInt8) :
    linesOf (body ++ [newline] ++ rest) = (body ++ [newline]) :: linesOf rest := by
  unfold linesOf
  rw [List.splitBy_append, List.splitBy_of_isChain (by simp)
    (isChain_of_newline_not_mem newline free), List.singleton_append]
  intro byte last _ _
  have same : byte = newline := by simpa using last.symm
  simp [same]

theorem linesOf_of_newline_not_mem {bytes : List UInt8} (nonempty : bytes ≠ [])
    (free : newline ∉ bytes) : linesOf bytes = [bytes] := by
  apply List.splitBy_of_isChain nonempty
  have split := List.dropLast_append_getLast nonempty
  rw [← split]
  exact isChain_of_newline_not_mem _ fun member => free ((List.dropLast_sublist _).mem member)

theorem linesOf_append {bytes rest first : List UInt8} {others : List (List UInt8)}
    (free : newline ∉ bytes) (lines : linesOf rest = first :: others) :
    linesOf (bytes ++ rest) = (bytes ++ first) :: others := by
  induction bytes with
  | nil => exact lines
  | cons byte bytes ih =>
      simp only [List.mem_cons, not_or] at free
      obtain ⟨flattened, nonempty, chains, cuts⟩ := List.splitBy_eq_iff.mp (ih free.2)
      simp only [List.mem_cons, not_or] at nonempty
      refine List.splitBy_eq_iff.mpr ⟨?_, ?_, ?_, ?_⟩
      · rw [List.cons_append, flattened]
        rfl
      · simp [nonempty.2]
      · intro line member
        rcases List.mem_cons.mp member with same | other
        · rw [same, List.cons_append]
          refine List.isChain_cons.mpr ⟨?_, chains _ List.mem_cons_self⟩
          intro _ _
          simpa using Ne.symm free.1
        · exact chains line (List.mem_cons_of_mem _ other)
      · rw [List.isChain_cons] at cuts ⊢
        refine ⟨?_, cuts.2⟩
        intro next head
        obtain ⟨left, right, cut⟩ := cuts.1 next head
        refine ⟨by simp, right, ?_⟩
        have last : (byte :: (bytes ++ first)).getLast (by simp) = (bytes ++ first).getLast left :=
          List.getLast_cons left
        simpa only [List.cons_append, last] using cut

/-! ## Reading a piece -/

/-- The bytes that reading takes as one piece: they end with their only newline, or
they hold none and fill the room. -/
def IsWhole (room : Nat) (piece : List UInt8) : Prop :=
  (∃ body, newline ∉ body ∧ piece = body ++ [newline] ∧ piece.length ≤ room) ∨
    (newline ∉ piece ∧ piece.length = room)

theorem IsWhole.cons {room : Nat} {byte : UInt8} {piece : List UInt8}
    (notNewline : byte ≠ newline) (whole : IsWhole room piece) :
    IsWhole (room + 1) (byte :: piece) := by
  rcases whole with ⟨body, free, split, within⟩ | ⟨free, full⟩
  · refine .inl ⟨byte :: body, ?_, by rw [split, List.cons_append], Nat.succ_le_succ within⟩
    simp [free, Ne.symm notNewline]
  · refine .inr ⟨?_, by rw [List.length_cons, full]⟩
    simp [free, Ne.symm notNewline]

theorem fill_append (room : Nat) (taken first second : List UInt8) :
    fill room taken (first ++ second) =
      match fill room taken first with
      | .complete taken rest => .complete taken (rest ++ second)
      | .wanting taken room => fill room taken second := by
  induction room, taken, first using fill.induct with
  | case1 taken first => simp [fill]
  | case2 room taken => simp [fill]
  | case3 room taken rest => simp [fill]
  | case4 room taken byte rest notNewline ih => simp [fill, notNewline, ih]

theorem fill_complete {room : Nat} {taken bytes taken' rest : List UInt8}
    (filled : fill room taken bytes = .complete taken' rest) :
    ∃ piece, IsWhole room piece ∧ bytes = piece ++ rest ∧
      taken'.reverse = taken.reverse ++ piece := by
  induction room, taken, bytes using fill.induct with
  | case1 taken bytes =>
      simp only [fill, Fill.complete.injEq] at filled
      obtain ⟨rfl, rfl⟩ := filled
      exact ⟨[], .inr ⟨by simp, rfl⟩, rfl, by simp⟩
  | case2 room taken => simp [fill] at filled
  | case3 room taken others =>
      simp only [fill, if_true, Fill.complete.injEq] at filled
      obtain ⟨rfl, rfl⟩ := filled
      refine ⟨[newline], .inl ⟨[], by simp, rfl, by simp⟩, rfl, by simp⟩
  | case4 room taken byte others notNewline ih =>
      simp only [fill, notNewline, if_false] at filled
      obtain ⟨piece, whole, split, taken⟩ := ih filled
      refine ⟨byte :: piece, whole.cons notNewline, by rw [split, List.cons_append], ?_⟩
      rw [taken, List.reverse_cons, List.append_assoc, List.singleton_append]

theorem fill_wanting {room room' : Nat} {taken bytes taken' : List UInt8}
    (filled : fill room taken bytes = .wanting taken' room') :
    newline ∉ bytes ∧ bytes.length < room ∧ taken'.reverse = taken.reverse ++ bytes := by
  induction room, taken, bytes using fill.induct with
  | case1 taken bytes => simp [fill] at filled
  | case2 room taken =>
      simp only [fill, Fill.wanting.injEq] at filled
      obtain ⟨rfl, rfl⟩ := filled
      simp
  | case3 room taken others => simp [fill] at filled
  | case4 room taken byte others notNewline ih =>
      simp only [fill, notNewline, if_false] at filled
      obtain ⟨free, within, taken⟩ := ih filled
      refine ⟨by simp [free, Ne.symm notNewline], Nat.succ_lt_succ within, ?_⟩
      rw [taken, List.reverse_cons, List.append_assoc, List.singleton_append]

/-- What a piece takes depends on the bytes that arrive, not on their portions. -/
theorem readPiece_eq_fill {room : Nat} (open_ : 0 < room) (taken : List UInt8)
    (arrivals : List (List UInt8)) :
    match fill room taken arrivals.flatten with
    | .complete taken' rest =>
        ∃ left, readPiece room taken arrivals = .piece taken'.reverse left ∧ left.flatten = rest
    | .wanting taken' _ => readPiece room taken arrivals = .exhausted taken'.reverse := by
  induction arrivals generalizing room taken with
  | nil =>
      obtain ⟨room, rfl⟩ := Nat.exists_eq_succ_of_ne_zero (Nat.ne_of_gt open_)
      simp [fill, readPiece]
  | cons arrival later ih =>
      cases filled : fill room taken arrival with
      | complete taken' rest =>
          simp only [List.flatten_cons, fill_append, readPiece, filled]
          exact ⟨rest :: later, rfl, rfl⟩
      | wanting taken' room' =>
          simp only [List.flatten_cons, fill_append, readPiece, filled]
          exact ih (fill_wanting_length filled).2 taken'

theorem linesOf_ne_nil {bytes : List UInt8} (nonempty : bytes ≠ []) :
    ∃ first others, first ≠ [] ∧ linesOf bytes = first :: others := by
  cases lines : linesOf bytes with
  | nil => exact absurd (List.splitBy_eq_nil.mp lines) nonempty
  | cons first others =>
      have member : first ∈ linesOf bytes := lines ▸ List.mem_cons_self
      exact ⟨first, others, List.ne_nil_of_mem_splitBy member, rfl⟩

theorem piecesOf_append {piece : List UInt8} (whole : IsWhole pieceLimit piece)
    (rest : List UInt8) : piecesOf (piece ++ rest) = piece :: piecesOf rest := by
  rcases whole with ⟨body, free, split, within⟩ | ⟨free, full⟩
  · have nonempty : piece ≠ [] := by simp [split]
    rw [piecesOf, split, linesOf_append_newline free, List.flatMap_cons, ← split,
      chunksOf_of_length_le nonempty within]
    rfl
  · have nonempty : piece ≠ [] := by
      intro empty
      simp [empty, pieceLimit] at full
    by_cases last : rest = []
    · rw [last, List.append_nil, piecesOf, linesOf_of_newline_not_mem nonempty free,
        List.flatMap_cons, chunksOf_of_length_le nonempty (Nat.le_of_eq full)]
      rfl
    · obtain ⟨first, others, _, lines⟩ := linesOf_ne_nil last
      rw [piecesOf, linesOf_append free lines, List.flatMap_cons,
        chunksOf_append full (by decide), piecesOf, lines, List.flatMap_cons, List.cons_append]

/-- Whether more bytes could not join a piece: it ends with a newline, or it is full. -/
def isComplete (piece : List UInt8) : Bool :=
  piece.getLast? == some newline || piece.length == pieceLimit

theorem IsWhole.isComplete {piece : List UInt8} (whole : IsWhole pieceLimit piece) :
    isComplete piece = true := by
  rcases whole with ⟨body, _, rfl, _⟩ | ⟨_, full⟩
  · simp [Reader.isComplete]
  · simp [Reader.isComplete, full]

theorem isComplete_eq_false {piece : List UInt8} (free : newline ∉ piece)
    (short : piece.length < pieceLimit) : isComplete piece = false := by
  have open_ : piece.length ≠ pieceLimit := Nat.ne_of_lt short
  have unended : piece.getLast? ≠ some newline := fun last => free (List.mem_of_getLast? last)
  simp [isComplete, open_, unended]

def lastPiece (bytes : List UInt8) : List (List UInt8) :=
  if bytes = [] then [] else [bytes]

/-- What follows the last whole piece is not complete. -/
theorem filter_isComplete_append_lastPiece {whole : List (List UInt8)} {rest : List UInt8}
    (areWhole : ∀ piece ∈ whole, IsWhole pieceLimit piece) (free : newline ∉ rest)
    (short : rest.length < pieceLimit) :
    (whole ++ lastPiece rest).filter isComplete = whole := by
  have kept : whole.filter isComplete = whole :=
    List.filter_eq_self.mpr fun piece member => (areWhole piece member).isComplete
  have unfinished : (lastPiece rest).filter isComplete = [] := by
    refine List.filter_eq_nil_iff.mpr fun piece member => ?_
    rw [lastPiece] at member
    split at member
    · cases member
    · rw [List.mem_singleton.mp member, isComplete_eq_false free short]
      exact Bool.false_ne_true
  rw [List.filter_append, kept, unfinished, List.append_nil]

theorem piecesOf_eq_lastPiece {bytes : List UInt8} (free : newline ∉ bytes)
    (short : bytes.length < pieceLimit) : piecesOf bytes = lastPiece bytes := by
  by_cases empty : bytes = []
  · subst empty
    rfl
  · rw [piecesOf, linesOf_of_newline_not_mem empty free, List.flatMap_cons,
      chunksOf_of_length_le empty (Nat.le_of_lt short), lastPiece, if_neg empty]
    rfl

/-! ## The reader's loop -/

/-- The loop acts on the whole pieces of what arrives, in order, and hands on what
follows the last of them. -/
theorem onPieces_eq_foldl (arrivals : List (List UInt8)) :
    ∃ (whole : List (List UInt8)) (rest : List UInt8),
      (∀ piece ∈ whole, IsWhole pieceLimit piece) ∧ newline ∉ rest ∧
      rest.length < pieceLimit ∧ arrivals.flatten = whole.flatten ++ rest ∧
      ∀ {State : Type} (act : State → List UInt8 → State) (state : State),
        onPieces act state arrivals = (whole.foldl act state, rest) := by
  -- Every round but the last takes a byte, so the bytes that are pending decrease.
  generalize measure : pending arrivals = count
  induction count using Nat.strongRecOn generalizing arrivals with
  | ind count ih =>
      have read := readPiece_eq_fill (by decide : 0 < pieceLimit) [] arrivals
      cases filled : fill pieceLimit [] arrivals.flatten with
      | wanting taken room =>
          simp only [filled] at read
          obtain ⟨free, short, all⟩ := fill_wanting filled
          refine ⟨[], arrivals.flatten, by simp, free, short, by simp, ?_⟩
          intro State act state
          rw [onPieces]
          split
          · rename_i bytes exhausted
            rw [read] at exhausted
            cases exhausted
            simp [all]
          · rename_i bytes left found
            rw [read] at found
            cases found
      | complete taken rest =>
          simp only [filled] at read
          obtain ⟨left, found, leftover⟩ := read
          obtain ⟨piece, isWhole, split, same⟩ := fill_complete filled
          have shorter := (readPiece_piece_length found (by decide)).1
          have taken_pos := (readPiece_piece_length found (by decide)).2
          simp only [List.length_nil] at shorter taken_pos
          obtain ⟨whole, final, areWhole, free, short, flat, loop⟩ :=
            ih (pending left) (by omega) left rfl
          refine ⟨piece :: whole, final, ?_, free, short, ?_, ?_⟩
          · intro other member
            rcases List.mem_cons.mp member with head | later
            · exact head ▸ isWhole
            · exact areWhole other later
          · rw [split, ← leftover, flat, List.flatten_cons, List.append_assoc]
          · intro State act state
            have pieceSame : taken.reverse = piece := by simpa using same
            rw [onPieces]
            split
            · rename_i bytes exhausted
              rw [found] at exhausted
              cases exhausted
            · rename_i bytes others again
              rw [found] at again
              cases again
              rw [loop, pieceSame, List.foldl_cons]

theorem piecesOf_whole_append {whole : List (List UInt8)}
    (areWhole : ∀ piece ∈ whole, IsWhole pieceLimit piece) (rest : List UInt8) :
    piecesOf (whole.flatten ++ rest) = whole ++ piecesOf rest := by
  induction whole with
  | nil => rfl
  | cons piece whole ih =>
      rw [List.flatten_cons, List.append_assoc,
        piecesOf_append (areWhole piece List.mem_cons_self),
        ih fun other member => areWhole other (List.mem_cons_of_mem _ member), List.cons_append]

theorem exists_whole_pieces (bytes : List UInt8) :
    ∃ (whole : List (List UInt8)) (rest : List UInt8),
      (∀ piece ∈ whole, IsWhole pieceLimit piece) ∧ newline ∉ rest ∧
      rest.length < pieceLimit ∧ piecesOf bytes = whole ++ lastPiece rest := by
  obtain ⟨whole, rest, areWhole, free, short, split, _⟩ := onPieces_eq_foldl [bytes]
  rw [List.flatten_singleton] at split
  refine ⟨whole, rest, areWhole, free, short, ?_⟩
  rw [split, piecesOf_whole_append areWhole, piecesOf_eq_lastPiece free short]

/-! ## What a piece looks like -/

/-- A newline stands at the end of a piece or nowhere in it. -/
structure IsPiece (piece : List UInt8) : Prop where
  nonempty : piece ≠ []
  within : piece.length ≤ pieceLimit
  single : newline ∉ piece.dropLast

theorem IsWhole.isPiece {piece : List UInt8} (whole : IsWhole pieceLimit piece) :
    IsPiece piece := by
  rcases whole with ⟨body, free, rfl, within⟩ | ⟨free, full⟩
  · refine ⟨List.concat_ne_nil newline body, within, ?_⟩
    rwa [List.dropLast_concat]
  · refine ⟨?_, Nat.le_of_eq full, fun member => free ((List.dropLast_sublist piece).mem member)⟩
    rintro rfl
    exact absurd full (by decide)

theorem isPiece_of_mem_piecesOf {bytes piece : List UInt8} (member : piece ∈ piecesOf bytes) :
    IsPiece piece := by
  obtain ⟨whole, rest, areWhole, free, short, pieces⟩ := exists_whole_pieces bytes
  rw [pieces] at member
  rcases List.mem_append.mp member with isWhole | last
  · exact (areWhole piece isWhole).isPiece
  · rw [lastPiece] at last
    split at last
    · cases last
    · rename_i nonempty
      rw [List.mem_singleton.mp last]
      exact ⟨nonempty, Nat.le_of_lt short,
        fun member => free ((List.dropLast_sublist rest).mem member)⟩

/-- Each newline completes a piece of its own. -/
theorem IsPiece.count_newline_le {piece : List UInt8} (isPiece : IsPiece piece) :
    piece.count newline ≤ (isComplete piece).toNat := by
  have split := List.dropLast_append_getLast isPiece.nonempty
  have none : piece.dropLast.count newline = 0 := List.count_eq_zero.mpr isPiece.single
  by_cases last : piece.getLast isPiece.nonempty = newline
  · have complete : isComplete piece = true := by
      rw [isComplete, List.getLast?_eq_some_getLast isPiece.nonempty, last]
      simp
    rw [complete, ← split, List.count_append, none, last]
    simp
  · rw [← split, List.count_append, none, List.count_singleton]
    simp [last]

end PipeCast.Reader
