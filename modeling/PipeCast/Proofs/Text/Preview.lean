import PipeCast.Proofs.Text.Utf8.Decoding
import PipeCast.Text.Preview

/-!
# What a preview keeps

The offset of a character counts the bytes of the characters before it, so a text can be cut
there, and the cut leaves exactly those characters. A preview is thus bounded in characters,
however many bytes each of them takes.
-/

set_option autoImplicit false

namespace PipeCast.Text

/-! ## Cutting after some characters -/

@[simp] theorem length_encode_cons (character : Char) (rest : List Char) :
    (Utf8.encode (character :: rest)).length =
      character.utf8Size + (Utf8.encode rest).length := by
  change (String.utf8EncodeChar character ++ Utf8.encode rest).length = _
  rw [List.length_append, String.length_utf8EncodeChar]

theorem length_encode_le_four_mul (text : List Char) :
    (Utf8.encode text).length ≤ 4 * text.length := by
  induction text with
  | nil => exact Nat.le_refl 0
  | cons character rest ih =>
      have widest := character.utf8Size_le_four
      rw [length_encode_cons, List.length_cons]
      omega

theorem utf8ByteSize_ofList (text : List Char) :
    (String.ofList text).utf8ByteSize = (Utf8.encode text).length := by
  change (text.flatMap String.utf8EncodeChar).toByteArray.size = _
  rw [List.size_toByteArray]
  rfl

/-- The bytes of some characters end where the next character begins. -/
theorem isValid_encode_take (text : String) (count : Nat) :
    String.Pos.Raw.IsValid text ⟨(Utf8.encode (text.toList.take count)).length⟩ := by
  apply String.Pos.Raw.isValid_iff_exists_append.mpr
  refine ⟨String.ofList (text.toList.take count), String.ofList (text.toList.drop count), ?_, ?_⟩
  · rw [← String.ofList_append, List.take_append_drop, String.ofList_toList]
  · rw [String.rawEndPos, utf8ByteSize_ofList]

theorem splitAt?_cons (character : Char) (rest : List Char) (offset : Nat) :
    splitAt? (character :: rest) (character.utf8Size + offset) =
      (splitAt? rest offset).map fun (head, tail) => (character :: head, tail) := by
  obtain ⟨size, width⟩ := Nat.exists_eq_add_one_of_ne_zero (Nat.ne_of_gt character.utf8Size_pos)
  have next : character.utf8Size + offset = size + offset + 1 := by omega
  have fits : character.utf8Size ≤ size + offset + 1 := by omega
  have remains : size + offset + 1 - character.utf8Size = offset := by omega
  rw [next, splitAt?, if_pos fits, remains]

theorem splitAt?_length_encode (head tail : List Char) :
    splitAt? (head ++ tail) (Utf8.encode head).length = some (head, tail) := by
  induction head with
  | nil => cases tail <;> rfl
  | cons character rest ih =>
      rw [length_encode_cons, List.cons_append, splitAt?_cons, ih]
      rfl

theorem headAt?_length_encode_take (text : List Char) (count : Nat) :
    headAt? text (Utf8.encode (text.take count)).length = some (text.take count) := by
  have split := splitAt?_length_encode (text.take count) (text.drop count)
  rw [List.take_append_drop] at split
  rw [headAt?, split]
  rfl

namespace Preview

theorem offset?_eq (index : Nat) (text : List Char) :
    offset? index text =
      if index < text.length then some (Utf8.encode (text.take index)).length else none := by
  induction text generalizing index with
  | nil => cases index <;> rfl
  | cons character rest ih =>
      cases index with
      | zero => rfl
      | succ index =>
          rw [offset?, ih]
          simp only [List.length_cons, Nat.add_lt_add_iff_right, List.take_succ_cons,
            length_encode_cons]
          split <;> rfl

/-! ## Previews -/

theorem of_of_length_le {message : String} (short : message.length ≤ keptCharacters) :
    of message = message := by
  have whole : ¬ keptCharacters < message.toList.length := by
    rw [String.length_toList]
    exact Nat.not_lt.mpr short
  rw [of, cut, offset?_eq, if_neg whole]
  rfl

theorem toList_of_of_lt {message : String} (long : keptCharacters < message.length) :
    (of message).toList = message.toList.take keptCharacters ++ marker.toList := by
  have further : keptCharacters < message.toList.length := by
    rw [String.length_toList]
    exact long
  rw [of, cut, offset?_eq, if_pos further]
  simp only [Option.bind_some, headAt?_length_encode_take, ↓reduceIte, String.toList_ofList]

theorem length_take_of_lt {message : String} (long : keptCharacters < message.length) :
    (message.toList.take keptCharacters).length = keptCharacters := by
  rw [List.length_take, String.length_toList]
  exact Nat.min_eq_left (Nat.le_of_lt long)

theorem length_of_of_lt {message : String} (long : keptCharacters < message.length) :
    (of message).length = keptCharacters + 2 := by
  rw [← String.length_toList, toList_of_of_lt long, List.length_append, length_take_of_lt long]
  rfl

/-- A preview that was cut is too long itself, and cutting it leaves the same characters. -/
theorem of_of (message : String) : of (of message) = of message := by
  rcases Nat.lt_or_ge keptCharacters message.length with long | short
  · have longer : keptCharacters < (of message).length := by
      rw [length_of_of_lt long]
      omega
    apply String.toList_injective
    rw [toList_of_of_lt longer, toList_of_of_lt long, List.take_left' (length_take_of_lt long)]
  · rw [of_of_length_le short, of_of_length_le short]

/-- A message of at most so many characters is its own preview. Of any other the preview keeps
exactly so many characters and puts the marker after them. The cut is made where a character
begins, so it can always be made, and no preview has a preview other than itself. -/
theorem preview_keeps_first_characters (message : String) :
    of message =
      (if message.length ≤ keptCharacters then message
        else String.ofList (message.toList.take keptCharacters) ++ marker) ∧
    (offset? keptCharacters message.toList = none ↔ message.length ≤ keptCharacters) ∧
    (∀ offset, offset? keptCharacters message.toList = some offset →
      String.Pos.Raw.IsValid message ⟨offset⟩ ∧ offset ≤ 4 * keptCharacters ∧
      (Utf8.bytesOf message).take offset = Utf8.encode (message.toList.take keptCharacters) ∧
      headAt? message.toList offset = some (message.toList.take keptCharacters)) ∧
    (keptCharacters < message.length → (of message).length = keptCharacters + 2) ∧
    of (of message) = of message := by
  refine ⟨?_, ?_, ?_, length_of_of_lt, of_of message⟩
  · split
    · rename_i short
      exact of_of_length_le short
    · rename_i long
      apply String.toList_injective
      rw [toList_of_of_lt (Nat.lt_of_not_le long), String.toList_append, String.toList_ofList]
  · rw [offset?_eq, String.length_toList]
    split <;> simp <;> omega
  · intro offset found
    rw [offset?_eq] at found
    split at found
    · cases found
      refine ⟨isValid_encode_take message keptCharacters, ?_, ?_,
        headAt?_length_encode_take _ _⟩
      · have bytes := length_encode_le_four_mul (message.toList.take keptCharacters)
        have characters := List.length_take_le keptCharacters message.toList
        omega
      · have whole := Utf8.encode_append (message.toList.take keptCharacters)
          (message.toList.drop keptCharacters)
        rw [List.take_append_drop] at whole
        rw [Utf8.bytesOf, whole, List.take_left]
    · cases found

end Preview

end PipeCast.Text
