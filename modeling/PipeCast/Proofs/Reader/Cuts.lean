import PipeCast.Proofs.Reader.Texts

/-!
# Cuts at the piece limit

A line longer than a piece is cut where the limit falls, whatever stands there. The
messages of its pieces together are the line, blanks at its end apart, exactly if no cut
goes through a character and none has a blank right before it, unless only blanks follow.
-/

set_option autoImplicit false

namespace PipeCast.Reader

open Text

/-! ## Where the chunks of a line begin -/

theorem chunksOf_eq_cons {size : Nat} (positive : 0 < size) {bytes : List UInt8}
    (nonempty : bytes ≠ []) :
    chunksOf size bytes = bytes.take size :: chunksOf size (bytes.drop size) := by
  obtain ⟨before, rfl⟩ := Nat.exists_eq_succ_of_ne_zero (Nat.ne_of_gt positive)
  cases bytes with
  | nil => exact absurd rfl nonempty
  | cons byte rest => rw [chunksOf, List.take_succ_cons, List.drop_succ_cons, Nat.succ_sub_one]

theorem flatten_take_chunksOf {size : Nat} (positive : 0 < size) (count : Nat)
    (bytes : List UInt8) :
    ((chunksOf size bytes).take count).flatten = bytes.take (count * size) := by
  induction count generalizing bytes with
  | zero => simp
  | succ count ih =>
      by_cases empty : bytes = []
      · subst empty
        simp [chunksOf]
      · rw [chunksOf_eq_cons positive empty, List.take_succ_cons, List.flatten_cons, ih,
          Nat.succ_mul, Nat.add_comm, List.take_add]

theorem forall_append_chunksOf_iff {size : Nat} (positive : 0 < size) {bytes : List UInt8}
    {property : List UInt8 → Prop} :
    (∀ first second, chunksOf size bytes = first ++ second → property first.flatten) ↔
      ∀ count, property (bytes.take (count * size)) := by
  constructor
  · intro holds count
    rw [← flatten_take_chunksOf positive]
    exact holds _ _ (List.take_append_drop count _).symm
  · intro holds first second split
    have cut := flatten_take_chunksOf positive first.length bytes
    rw [split, List.take_left] at cut
    rw [cut]
    exact holds first.length

/-! ## What chunks say together -/

/-- What the messages of chunks say together. -/
def joined (chunks : List (List UInt8)) : List Char :=
  chunks.flatMap fun chunk => trimEnd (Utf8.decodeLossy chunk)

@[simp] theorem joined_cons (chunk : List UInt8) (rest : List (List UInt8)) :
    joined (chunk :: rest) = trimEnd (Utf8.decodeLossy chunk) ++ joined rest :=
  List.flatMap_cons

@[simp] theorem joined_append (first second : List (List UInt8)) :
    joined (first ++ second) = joined first ++ joined second :=
  List.flatMap_append

theorem toList_join_map_lineOf (chunks : List (List UInt8)) :
    (String.join (chunks.map lineOf)).toList = joined chunks := by
  rw [String.toList_join, List.flatMap_map]
  exact List.flatMap_congr fun chunk _ => String.toList_ofList

/-- A cut either leaves what is read as it is or adds to what is not blank. -/
theorem decode_append_or_solids_lt (first second : List UInt8) :
    Utf8.decode (first ++ second) = Utf8.decode first ++ Utf8.decode second ∨
      solids (Utf8.decodeLossy (first ++ second)) <
        solids (Utf8.decodeLossy first) + solids (Utf8.decodeLossy second) := by
  refine (Utf8.decode_append first second).imp_right ?_
  rintro ⟨earlier, item, strays, later, whole, before, after⟩
  have fault : solids [Utf8.replacement] = 1 := by decide
  have least := solids_singleton_le (item.getD Utf8.replacement)
  simp only [Utf8.decodeLossy, whole, before, after, List.replicate_succ, List.cons_append,
    List.map_append, List.map_cons, List.map_nil, solids_append, Option.getD_none, fault]
  rw [solids_cons (item.getD Utf8.replacement), solids_cons Utf8.replacement, solids_append, fault]
  omega

theorem decodeLossy_append {first second : List UInt8}
    (cut : Utf8.decode (first ++ second) = Utf8.decode first ++ Utf8.decode second) :
    Utf8.decodeLossy (first ++ second) = Utf8.decodeLossy first ++ Utf8.decodeLossy second := by
  rw [Utf8.decodeLossy, cut, List.map_append]
  rfl

theorem solids_flatten_le (chunks : List (List UInt8)) :
    solids (Utf8.decodeLossy chunks.flatten) ≤ solids (joined chunks) := by
  induction chunks with
  | nil => exact Nat.le_refl 0
  | cons chunk rest ih =>
      rw [List.flatten_cons, joined_cons, solids_append, solids_trimEnd]
      rcases decode_append_or_solids_lt chunk rest.flatten with cut | more
      · rw [decodeLossy_append cut, solids_append]
        exact Nat.add_le_add_left ih _
      · omega

/-- Chunks that together say as much that is not blank as the whole say no more than the
whole. -/
theorem length_joined_le {chunks : List (List UInt8)}
    (kept : solids (joined chunks) ≤ solids (Utf8.decodeLossy chunks.flatten)) :
    (joined chunks).length ≤ (trimEnd (Utf8.decodeLossy chunks.flatten)).length := by
  induction chunks with
  | nil => exact Nat.le_refl 0
  | cons chunk rest ih =>
      rw [List.flatten_cons, joined_cons, solids_append, solids_trimEnd] at kept
      have least := solids_flatten_le rest
      rcases decode_append_or_solids_lt chunk rest.flatten with cut | more
      · rw [decodeLossy_append cut, solids_append] at kept
        have within := ih (by omega)
        have together := length_trimEnd_append_le (Utf8.decodeLossy chunk)
          (Utf8.decodeLossy rest.flatten)
        rw [List.flatten_cons, joined_cons, List.length_append, decodeLossy_append cut]
        omega
      · omega

/-! ## Clean cuts -/

/-- The bytes before a cut end with a character of the text, and it is not blank, unless
nothing but blanks comes after the cut. -/
def CleanCut (text : List Char) (before : List UInt8) : Prop :=
  ∃ head tail, text = head ++ tail ∧ before = Utf8.encode head ∧
    (trimEnd head = head ∨ trimEnd tail = [])

/-- A clean cut that comes after another one is a clean cut of what the first leaves. -/
theorem CleanCut.of_append {head tail : List Char} {before : List UInt8}
    (clean : CleanCut (head ++ tail) (Utf8.encode head ++ before)) : CleanCut tail before := by
  obtain ⟨longer, rest, split, same, solid⟩ := clean
  rcases List.append_eq_append_iff.mp split with ⟨inner, rfl, rfl⟩ | ⟨inner, rfl, rfl⟩
  · refine ⟨inner, rest, rfl, ?_, solid.imp_left trimEnd_eq_self_of_append⟩
    rw [Utf8.encode_append] at same
    exact List.append_cancel_left same
  · rw [Utf8.encode_append, List.append_assoc] at same
    obtain ⟨none, rfl⟩ := List.append_eq_nil_iff.mp (List.append_right_eq_self.mp same)
    exact ⟨[], tail, rfl, rfl, .inl rfl⟩

theorem joined_eq_of_cleanCut {text : List Char} {chunks : List (List UInt8)}
    (whole : chunks.flatten = Utf8.encode text)
    (clean : ∀ first second, chunks = first ++ second → CleanCut text first.flatten) :
    joined chunks = trimEnd text := by
  induction chunks generalizing text with
  | nil =>
      rw [Utf8.encode_eq_nil_iff.mp whole.symm]
      rfl
  | cons chunk rest ih =>
      obtain ⟨head, tail, rfl, same, solid⟩ := clean [chunk] rest rfl
      have begins : chunk = Utf8.encode head := by simpa using same
      have follows : rest.flatten = Utf8.encode tail := by
        rw [List.flatten_cons, begins, Utf8.encode_append] at whole
        exact List.append_cancel_left whole
      have later : joined rest = trimEnd tail := by
        refine ih follows fun first second split => ?_
        have cut := clean (chunk :: first) second (by rw [split, List.cons_append])
        rw [List.flatten_cons, begins] at cut
        exact cut.of_append
      rw [joined_cons, begins, Utf8.decodeLossy_encode, later]
      exact trimEnd_append_trimEnd_iff.mpr solid

theorem cleanCut_of_joined_eq {text : List Char} {first second : List (List UInt8)}
    (whole : (first ++ second).flatten = Utf8.encode text)
    (same : joined (first ++ second) = trimEnd text) : CleanCut text first.flatten := by
  have read := Utf8.decode_encode text
  have lossy := Utf8.decodeLossy_encode text
  rw [← whole, List.flatten_append] at read lossy
  have counted := congrArg solids same
  rw [joined_append, solids_append, solids_trimEnd] at counted
  have least := solids_flatten_le first
  have leastAfter := solids_flatten_le second
  rcases decode_append_or_solids_lt first.flatten second.flatten with cut | more
  · rw [decodeLossy_append cut] at lossy
    rw [cut] at read
    obtain ⟨head, tail, rfl, before, after⟩ := List.map_eq_append_iff.mp read.symm
    have encoded := Utf8.encode_of_decode before.symm
    have encodedAfter := Utf8.encode_of_decode after.symm
    have solidly := congrArg solids lossy
    rw [solids_append] at solidly
    have within := @length_joined_le first (by omega)
    have withinAfter := @length_joined_le second (by omega)
    rw [encoded, Utf8.decodeLossy_encode] at within
    rw [encodedAfter, Utf8.decodeLossy_encode] at withinAfter
    refine ⟨head, tail, rfl, encoded, solid_or_blank_of_length_le ?_⟩
    rw [← same, joined_append, List.length_append]
    exact Nat.add_le_add within withinAfter
  · rw [lossy] at more
    omega

theorem joined_chunksOf_eq_iff {size : Nat} (positive : 0 < size) (text : List Char) :
    joined (chunksOf size (Utf8.encode text)) = trimEnd text ↔
      ∀ count, CleanCut text ((Utf8.encode text).take (count * size)) := by
  have whole := flatten_chunksOf size (Utf8.encode text)
  refine Iff.trans ?_ (forall_append_chunksOf_iff positive)
  constructor
  · intro same first second split
    rw [split] at same whole
    exact cleanCut_of_joined_eq whole same
  · exact joined_eq_of_cleanCut whole

/-- The text can be cut after this many bytes: between two characters, and not right after
a blank unless nothing but blanks comes after the cut. -/
def CanBeCut (text : List Char) (room : Nat) : Prop :=
  ∃ head tail, text = head ++ tail ∧ (Utf8.encode head).length = room ∧
    (trimEnd head = head ∨ trimEnd tail = [])

theorem cleanCut_take_iff {text ending : List Char} {room : Nat} (blank : trimEnd ending = [])
    (within : room ≤ (Utf8.encode text).length) :
    CleanCut (text ++ ending) ((Utf8.encode (text ++ ending)).take room) ↔
      CanBeCut text room := by
  have cut : (Utf8.encode (text ++ ending)).take room = (Utf8.encode text).take room := by
    rw [Utf8.encode_append, List.take_append_of_le_length within]
  rw [cut]
  constructor
  · rintro ⟨head, tail, split, same, solid⟩
    have length := congrArg List.length same
    rw [List.length_take_of_le within] at length
    rcases List.append_eq_append_iff.mp split with ⟨inner, rfl, rfl⟩ | ⟨inner, rfl, rfl⟩
    · rw [Utf8.encode_append, List.length_append] at length
      have none : Utf8.encode inner = [] := List.length_eq_zero_iff.mp (by omega)
      rw [Utf8.encode_eq_nil_iff] at none
      subst none
      refine ⟨text, [], (List.append_nil text).symm, ?_, .inr rfl⟩
      exact length.symm
    · refine ⟨head, inner, rfl, length.symm, solid.imp_right fun rest => ?_⟩
      rw [trimEnd_eq_nil_iff] at rest ⊢
      exact fun character member => rest character (List.mem_append_left _ member)
  · rintro ⟨head, tail, rfl, length, solid⟩
    refine ⟨head, tail ++ ending, List.append_assoc _ _ _, ?_, solid.imp_right fun rest => ?_⟩
    · rw [Utf8.encode_append, List.take_left' length]
    · rw [trimEnd_append, if_pos blank, rest]

theorem cleanCut_encode (text : List Char) : CleanCut text (Utf8.encode text) :=
  ⟨text, [], (List.append_nil text).symm, rfl, .inr rfl⟩

/-- A newline at the end of a line makes no difference to how the line may be cut. -/
theorem joined_line_eq_iff {text ending : List Char} (ends : ending = [] ∨ ending = ['\n']) :
    joined (chunksOf pieceLimit (Utf8.encode (text ++ ending))) = trimEnd text ↔
      ∀ count, count * pieceLimit < (Utf8.encode text).length →
        CanBeCut text (count * pieceLimit) := by
  have blank : trimEnd ending = [] := by
    rcases ends with rfl | rfl
    · rfl
    · decide
  have short : (Utf8.encode ending).length ≤ 1 := by
    rcases ends with rfl | rfl
    · exact Nat.zero_le 1
    · exact Nat.le_of_eq (congrArg List.length encode_newline)
  have trimmed : trimEnd (text ++ ending) = trimEnd text := by rw [trimEnd_append, if_pos blank]
  rw [← trimmed, joined_chunksOf_eq_iff (by decide)]
  constructor
  · intro clean count within
    exact (cleanCut_take_iff blank (Nat.le_of_lt within)).mp (clean count)
  · intro canBeCut count
    rcases Nat.lt_trichotomy (count * pieceLimit) (Utf8.encode text).length with
      within | last | past
    · exact (cleanCut_take_iff blank (Nat.le_of_lt within)).mpr (canBeCut count within)
    · refine (cleanCut_take_iff blank (Nat.le_of_eq last)).mpr ?_
      exact ⟨text, [], (List.append_nil text).symm, last.symm, .inr rfl⟩
    · rw [List.take_of_length_le]
      · exact cleanCut_encode _
      · rw [Utf8.encode_append, List.length_append]
        omega

/-! ## Lines of a session -/

theorem piecesOf_append_of_ended {before : List UInt8}
    (ended : before = [] ∨ before.getLast? = some newline) (rest : List UInt8) :
    piecesOf (before ++ rest) = piecesOf before ++ piecesOf rest := by
  rcases ended with rfl | ended
  · rfl
  · have lines : linesOf (before ++ rest) = linesOf before ++ linesOf rest := by
      unfold linesOf
      rw [List.splitBy_append]
      intro byte last _ _
      have same : byte = newline := Option.some.inj (last.symm.trans ended)
      simp [same]
    rw [piecesOf, lines, List.flatMap_append]
    rfl

/-- The lines before and after a line have no part in how it is cut. -/
theorem piecesOf_line {before ending after : List UInt8} {text : String}
    (starts : before = [] ∨ before.getLast? = some newline) (single : '\n' ∉ text.toList)
    (ends : ending = [newline] ∨ ending = [] ∧ text ≠ "" ∧ after = []) :
    piecesOf (before ++ (Utf8.bytesOf text ++ ending) ++ after) =
      piecesOf before ++ chunksOf pieceLimit (Utf8.bytesOf text ++ ending) ++ piecesOf after := by
  have free := newline_not_mem_bytesOf single
  rw [List.append_assoc, piecesOf_append_of_ended starts, List.append_assoc (piecesOf before)]
  apply congrArg
  rcases ends with rfl | ⟨rfl, nonempty, rfl⟩
  · rw [piecesOf, linesOf_append_newline free, List.flatMap_cons]
    rfl
  · rw [List.append_nil, List.append_nil, piecesOf,
      linesOf_of_newline_not_mem (bytesOf_ne_nil nonempty) free, List.flatMap_singleton]
    exact (List.append_nil _).symm

/-- The messages of a line together are its text without the blanks at its end exactly if
the text can be cut wherever the limit falls. -/
theorem messages_restore_line_iff (hub : Hub) {arrivals : List (List UInt8)}
    {before ending after : List UInt8} {text : String}
    (arrived : arrivals.flatten = before ++ (Utf8.bytesOf text ++ ending) ++ after)
    (starts : before = [] ∨ before.getLast? = some newline) (single : '\n' ∉ text.toList)
    (ends : ending = [newline] ∨ ending = [] ∧ text ≠ "" ∧ after = []) :
    ∃ (final : Hub) (earlier messages later : List String) (reports : List Hub.Report),
      round hub (.opened ⟨arrivals, none⟩) =
        (final, .ended (earlier ++ messages ++ later).length (earlier ++ messages ++ later)
          reports none) ∧
      earlier = (piecesOf before).map lineOf ∧ later = (piecesOf after).map lineOf ∧
      messages = (chunksOf pieceLimit (Utf8.bytesOf text ++ ending)).map lineOf ∧
      (String.join messages = String.ofList (trimEnd text.toList) ↔
        ∀ count, count * pieceLimit < (Utf8.bytesOf text).length →
          CanBeCut text.toList (count * pieceLimit)) := by
  have ended := round_ended hub arrivals
  rw [arrived, piecesOf_line starts single ends, List.map_append, List.map_append] at ended
  refine ⟨_, _, _, _, _, ended, rfl, rfl, rfl, ?_⟩
  obtain ⟨characters, encoded, kind⟩ : ∃ characters, ending = Utf8.encode characters ∧
      (characters = [] ∨ characters = ['\n']) := by
    rcases ends with rfl | ⟨rfl, _⟩
    · exact ⟨['\n'], encode_newline.symm, .inr rfl⟩
    · exact ⟨[], rfl, .inl rfl⟩
  have whole : Utf8.bytesOf text ++ ending = Utf8.encode (text.toList ++ characters) := by
    rw [encoded, Utf8.encode_append]
    rfl
  rw [← String.toList_inj, String.toList_ofList, toList_join_map_lineOf, whole]
  exact joined_line_eq_iff kind

theorem canBeCut_replicate {count room : Nat} (within : room ≤ count) {value : Nat}
    (below : value < 0x80) (solid : isBlank (Char.ofNat value) = false) :
    CanBeCut (List.replicate count (Char.ofNat value)) room := by
  refine ⟨List.replicate room (Char.ofNat value), List.replicate (count - room) (Char.ofNat value),
    ?_, ?_, .inl ?_⟩
  · rw [List.replicate_append_replicate, Nat.add_sub_cancel' within]
  · rw [Utf8.encode_replicate _ below, List.length_replicate]
  · exact trimEnd_replicate room solid

theorem long_line_is_restored :
    ∃ (final : Hub) (messages : List String) (reports : List Hub.Report),
      round .fresh
          (.opened ⟨[Utf8.bytesOf (String.ofList (List.replicate 65537 'a')) ++ [newline]], none⟩) =
        (final, .ended messages.length messages reports none) ∧
      String.join messages =
        String.ofList (trimEnd (String.ofList (List.replicate 65537 'a')).toList) := by
  have single : '\n' ∉ (String.ofList (List.replicate 65537 'a')).toList := by
    rw [String.toList_ofList]
    exact fun member => absurd (List.eq_of_mem_replicate member) (by decide)
  obtain ⟨final, earlier, messages, later, reports, ended, rfl, rfl, _, restored⟩ :=
    @messages_restore_line_iff .fresh
      [Utf8.bytesOf (String.ofList (List.replicate 65537 'a')) ++ [newline]] [] [newline] []
      (String.ofList (List.replicate 65537 'a'))
      (by rw [List.flatten_singleton, List.nil_append, List.append_nil]) (.inl rfl) single (.inl rfl)
  rw [show (piecesOf []).map lineOf = [] from rfl, List.nil_append, List.append_nil] at ended
  refine ⟨final, messages, reports, ended, restored.mpr fun count within => ?_⟩
  rw [String.toList_ofList]
  rw [Utf8.bytesOf, String.toList_ofList, @Utf8.encode_replicate 65537 0x61 (by decide),
    List.length_replicate] at within
  exact @canBeCut_replicate _ _ (Nat.le_of_lt within) 0x61 (by decide) (by decide)

/-- A character of two bytes at the end of a line that has room for one of them. -/
theorem map_lineOf_cut_character {text : List Char} (single : '\n' ∉ text)
    (full : (Utf8.encode text).length + 1 = pieceLimit) :
    (piecesOf (Utf8.encode (text ++ ['é']))).map lineOf =
      [String.ofList (text ++ ['\uFFFD']), String.ofList ['\uFFFD']] := by
  have free : newline ∉ Utf8.encode text ++ [0xC3] := by
    rw [List.mem_append, not_or]
    exact ⟨fun member => single (Utf8.ofNat_mem_of_mem_encode (by decide) member), by decide⟩
  have split : Utf8.encode (text ++ ['é']) = (Utf8.encode text ++ [0xC3]) ++ [0xA9] := by
    rw [Utf8.encode_append, List.append_assoc]
    rfl
  have first : lineOf (Utf8.encode text ++ [0xC3]) = String.ofList (text ++ ['\uFFFD']) := by
    rw [lineOf, Utf8.decodeLossy_encode_append, show Utf8.decodeLossy [0xC3] = ['\uFFFD'] from rfl,
      trimEnd_eq_self_append (by decide) (by decide)]
  rw [split, piecesOf_append (.inr ⟨free, by rw [List.length_append, ← full]; rfl⟩),
    piecesOf_eq_lastPiece (by decide) (by decide), List.map_cons, first]
  rfl

theorem cut_character_is_replaced :
    '\n' ∉ List.replicate 65535 'a' ++ ['é'] ∧
    ∃ (final : Hub) (messages : List String) (reports : List Hub.Report),
      round .fresh (.opened ⟨[Utf8.encode (List.replicate 65535 'a' ++ ['é'])], none⟩) =
        (final, .ended messages.length messages reports none) ∧
      messages = [String.ofList (List.replicate 65535 'a' ++ ['\uFFFD']), "\uFFFD"] ∧
      String.join messages ≠ String.ofList (trimEnd (List.replicate 65535 'a' ++ ['é'])) := by
  -- The number stays a variable, so that nothing computes with a text of this length.
  obtain ⟨count, known⟩ : ∃ count, count = 65535 := ⟨_, rfl⟩
  rw [← known]
  have single : '\n' ∉ List.replicate count 'a' :=
    fun member => absurd (List.eq_of_mem_replicate member) (by decide)
  have full : (Utf8.encode (List.replicate count 'a')).length + 1 = pieceLimit := by
    rw [@Utf8.encode_replicate count 0x61 (by decide), List.length_replicate, known, pieceLimit]
  have ended := round_ended .fresh [Utf8.encode (List.replicate count 'a' ++ ['é'])]
  rw [List.flatten_singleton, map_lineOf_cut_character single full] at ended
  refine ⟨?_, _, _, _, ended, rfl, ?_⟩
  · rw [List.mem_append, not_or]
    exact ⟨single, by decide⟩
  · intro same
    have length := congrArg (fun text => text.toList.length) same
    have shorter := length_trimEnd_le (List.replicate count 'a' ++ ['é'])
    simp only [String.toList_join, String.toList_ofList, List.flatMap_cons, List.flatMap_nil,
      List.length_append, List.length_singleton, List.length_nil] at length shorter
    omega

end PipeCast.Reader
