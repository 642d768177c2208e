import PipeCast.Proofs.Reader.Sessions
import PipeCast.Proofs.Text.Blank
import PipeCast.Proofs.Text.Utf8.Decoding

/-!
# Texts that are sent as lines

A writer that sends texts without a newline, each short enough for a piece together with
the newline that ends it, is understood: every text becomes one message, from which only
blanks at its end are missing.
-/

set_option autoImplicit false

namespace PipeCast.Reader

open Text

/-! ## The line of a text -/

def terminated (text : String) : List UInt8 :=
  Utf8.bytesOf text ++ [newline]

theorem newline_not_mem_bytesOf {text : String} (single : '\n' ∉ text.toList) :
    newline ∉ Utf8.bytesOf text := by
  intro member
  exact single (Utf8.ofNat_mem_of_mem_encode (by decide) member)

theorem encode_newline : Utf8.encode ['\n'] = [newline] := by
  rw [Utf8.encode, List.flatMap_singleton]
  exact Utf8.encode_one (by decide)

theorem lineOf_encode (text : List Char) :
    lineOf (Utf8.encode text) = String.ofList (trimEnd text) := by
  rw [lineOf, Utf8.decodeLossy_encode]

theorem lineOf_terminated (text : String) :
    lineOf (terminated text) = String.ofList (trimEnd text.toList) := by
  have whole : terminated text = Utf8.encode (text.toList ++ ['\n']) := by
    rw [Utf8.encode_append, encode_newline]
    rfl
  rw [whole, lineOf_encode, trimEnd_append_blank _ (by decide)]

theorem lineOf_bytesOf (text : String) :
    lineOf (Utf8.bytesOf text) = String.ofList (trimEnd text.toList) :=
  lineOf_encode text.toList

/-! ## The pieces of texts -/

/-- What a writer writes to send texts. Only a text that is not empty can be ended by the
end of the input instead of a newline. -/
inductive Written : List String → List UInt8 → Prop where
  | closed {texts : List String} : Written texts (texts.flatMap terminated)
  | unclosed {earlier : List String} {last : String} : last ≠ "" →
      Written (earlier ++ [last]) (earlier.flatMap terminated ++ Utf8.bytesOf last)

theorem isWhole_terminated {text : String} (single : '\n' ∉ text.toList)
    (within : (Utf8.bytesOf text).length ≤ pieceLimit - 1) :
    IsWhole pieceLimit (terminated text) := by
  refine .inl ⟨Utf8.bytesOf text, newline_not_mem_bytesOf single, rfl, ?_⟩
  rw [terminated, List.length_append, List.length_singleton]
  exact Nat.add_le_of_le_sub (by decide) within

theorem piecesOf_flatMap_terminated {texts : List String}
    (single : ∀ text ∈ texts, '\n' ∉ text.toList)
    (within : ∀ text ∈ texts, (Utf8.bytesOf text).length ≤ pieceLimit - 1) (rest : List UInt8) :
    piecesOf (texts.flatMap terminated ++ rest) = texts.map terminated ++ piecesOf rest := by
  rw [List.flatMap_def]
  apply piecesOf_whole_append
  intro piece member
  obtain ⟨text, given, rfl⟩ := List.mem_map.mp member
  exact isWhole_terminated (single text given) (within text given)

theorem bytesOf_ne_nil {text : String} (nonempty : text ≠ "") : Utf8.bytesOf text ≠ [] := by
  intro empty
  exact nonempty (String.toList_eq_nil_iff.mp (Utf8.encode_eq_nil_iff.mp empty))

theorem piecesOf_bytesOf {text : String} (nonempty : text ≠ "") (single : '\n' ∉ text.toList)
    (within : (Utf8.bytesOf text).length ≤ pieceLimit - 1) :
    piecesOf (Utf8.bytesOf text) = [Utf8.bytesOf text] := by
  have short : (Utf8.bytesOf text).length < pieceLimit :=
    Nat.lt_of_le_of_lt within (by decide)
  rw [piecesOf_eq_lastPiece (newline_not_mem_bytesOf single) short, lastPiece,
    if_neg (bytesOf_ne_nil nonempty)]

/-- Every text becomes one piece, and what the piece says is the text without the blanks at
its end. -/
theorem map_lineOf_piecesOf {texts : List String} {bytes : List UInt8}
    (written : Written texts bytes) (single : ∀ text ∈ texts, '\n' ∉ text.toList)
    (within : ∀ text ∈ texts, (Utf8.bytesOf text).length ≤ pieceLimit - 1) :
    (piecesOf bytes).map lineOf = texts.map fun text => String.ofList (trimEnd text.toList) := by
  cases written with
  | closed =>
      have pieces := piecesOf_flatMap_terminated single within []
      rw [List.append_nil] at pieces
      rw [pieces, show piecesOf [] = [] from rfl, List.append_nil, List.map_map]
      exact List.map_congr_left fun text _ => lineOf_terminated text
  | @unclosed earlier last nonempty =>
      simp only [List.mem_append, List.mem_singleton] at single within
      rw [piecesOf_flatMap_terminated (fun text member => single text (.inl member))
        (fun text member => within text (.inl member)),
        piecesOf_bytesOf nonempty (single last (.inr rfl)) (within last (.inr rfl)),
        List.map_append, List.map_append, List.map_map, List.map_singleton, List.map_singleton,
        lineOf_bytesOf]
      exact congrArg (· ++ _) (List.map_congr_left fun text _ => lineOf_terminated text)

/-! ## The session of a writer -/

/-- A session that ends without an error sends the lines of the pieces of what arrived and
counts them. -/
theorem round_ended (hub : Hub) (arrivals : List (List UInt8)) :
    round hub (.opened ⟨arrivals, none⟩) =
      ((forwardAll hub ((piecesOf arrivals.flatten).map lineOf)).1,
        .ended ((piecesOf arrivals.flatten).map lineOf).length
          ((piecesOf arrivals.flatten).map lineOf)
          (forwardAll hub ((piecesOf arrivals.flatten).map lineOf)).2 none) := by
  rw [round_opened, Opening.lines, Source.pieces_eq_piecesOf rfl]

/-- Texts without a newline that fit into a piece with the newline that ends them arrive as
one message each, in order, and the session returns how many texts there are. Of a text only
the blanks at its end are missing. -/
theorem round_forwards_each_text (hub : Hub) {arrivals : List (List UInt8)} {texts : List String}
    (written : Written texts arrivals.flatten)
    (single : ∀ text ∈ texts, '\n' ∉ text.toList)
    (within : ∀ text ∈ texts, (Utf8.bytesOf text).length ≤ pieceLimit - 1) :
    ∃ (final : Hub) (messages : List String) (reports : List Hub.Report),
      round hub (.opened ⟨arrivals, none⟩) =
        (final, .ended texts.length messages reports none) ∧
      forwardAll hub messages = (final, reports) ∧
      messages = texts.map (fun text => String.ofList (trimEnd text.toList)) ∧
      messages.length = texts.length ∧ reports.length = texts.length ∧
      ∀ text ∈ texts, ∃ blanks, text.toList = trimEnd text.toList ++ blanks ∧
        (∀ character ∈ blanks, isBlank character = true) ∧
        ∀ last, (trimEnd text.toList).getLast? = some last → isBlank last = false := by
  have lines := map_lineOf_piecesOf written single within
  have ended := round_ended hub arrivals
  rw [lines, List.length_map] at ended
  refine ⟨_, _, _, ended, rfl, rfl, List.length_map _, ?_, ?_⟩
  · rw [length_forwardAll, List.length_map]
  · intro text _
    exact exists_trimEnd_append text.toList

/-- Two portions of arrivals that cut a character and a line, and no newline at the end. -/
theorem round_forwards_marked_text :
    ∃ (final : Hub) (messages : List String) (reports : List Hub.Report),
      round .fresh (.opened ⟨[[0x20, 0x61, 0x0D, 0x0A, 0x0A, 0xEF, 0xBB],
        [0xBF, 0x00, 0xC3, 0xA9, 0x09, 0xE3, 0x80, 0x80]], none⟩) =
        (final, .ended 3 messages reports none) ∧
      messages = [" a", "", "\uFEFF\x00é"] ∧ reports.length = 3 := by
  have written : Written [" a\r", "", "\uFEFF\x00é\t\u3000"]
      [[0x20, 0x61, 0x0D, 0x0A, 0x0A, 0xEF, 0xBB],
        [0xBF, 0x00, 0xC3, 0xA9, 0x09, 0xE3, 0x80, (0x80 : UInt8)]].flatten :=
    @Written.unclosed [" a\r", ""] "\uFEFF\x00é\t\u3000" (by decide)
  obtain ⟨final, messages, reports, ended, _, said, _, counted, _⟩ :=
    round_forwards_each_text .fresh written (by decide) (by decide)
  exact ⟨final, messages, reports, ended, said.trans (by decide), counted⟩

end PipeCast.Reader
