import PipeCast.Text.Utf8

/-!
# Sequences of bytes that encode a character

A run of the decoder is unrolled byte by byte, and the bytes that it takes for one
character are those that encode the character.
-/

set_option autoImplicit false

namespace PipeCast.Text.Utf8

/-! ## Unrolling a run -/

namespace Decoder

/-- The decoder with earlier items before its own. -/
def behind (decoder : Decoder) (earlier : List (Option Char)) : Decoder :=
  ⟨decoder.read ++ earlier, decoder.unfinished⟩

theorem restart_behind (decoder : Decoder) (earlier : List (Option Char)) (byte : UInt8) :
    (decoder.behind earlier).restart byte = (decoder.restart byte).behind earlier := by
  unfold restart
  cases lead byte <;> rfl

theorem push_behind (decoder : Decoder) (earlier : List (Option Char)) (byte : UInt8) :
    (decoder.behind earlier).push byte = (decoder.push byte).behind earlier := by
  obtain ⟨read, unfinished⟩ := decoder
  cases unfinished with
  | none => exact restart_behind ..
  | some sequence =>
      simp only [push, behind]
      split
      · cases sequence.further <;> rfl
      · exact restart_behind ⟨none :: read, none⟩ earlier byte

theorem pushAll_behind (decoder : Decoder) (earlier : List (Option Char)) (bytes : List UInt8) :
    (decoder.behind earlier).pushAll bytes = (decoder.pushAll bytes).behind earlier := by
  induction bytes generalizing decoder with
  | nil => rfl
  | cons byte rest ih =>
      have pushed := ih (decoder.push byte)
      rwa [← push_behind] at pushed

theorem finish_behind (decoder : Decoder) (earlier : List (Option Char)) :
    (decoder.behind earlier).finish = earlier.reverse ++ decoder.finish := by
  obtain ⟨read, unfinished⟩ := decoder
  cases unfinished <;> simp [finish, behind]

end Decoder

/-- What is read from some bytes, possibly in the middle of a sequence. -/
def reads (unfinished : Option Unfinished) (bytes : List UInt8) : List (Option Char) :=
  (Decoder.pushAll ⟨[], unfinished⟩ bytes).finish

theorem decode_eq_reads (bytes : List UInt8) : decode bytes = reads none bytes := rfl

private theorem finish_pushAll (read : List (Option Char)) (unfinished : Option Unfinished)
    (bytes : List UInt8) :
    (Decoder.pushAll ⟨read, unfinished⟩ bytes).finish =
      read.reverse ++ reads unfinished bytes := by
  rw [reads, ← Decoder.finish_behind, ← Decoder.pushAll_behind]
  rfl

@[simp] theorem reads_none_nil : reads none [] = [] := rfl

@[simp] theorem reads_some_nil (sequence : Unfinished) : reads (some sequence) [] = [none] := rfl

theorem reads_none_cons (byte : UInt8) (rest : List UInt8) :
    reads none (byte :: rest) =
      match lead byte with
      | .whole character => some character :: reads none rest
      | .opens sequence => reads (some sequence) rest
      | .stray => none :: reads none rest := by
  change (Decoder.pushAll (Decoder.restart ⟨[], none⟩ byte) rest).finish = _
  unfold Decoder.restart
  cases lead byte with
  | whole character => exact finish_pushAll [some character] none rest
  | opens sequence => rfl
  | stray => exact finish_pushAll [none] none rest

/-- The value of a sequence after one more of its bytes. -/
def Unfinished.extended (sequence : Unfinished) (byte : UInt8) : Nat :=
  sequence.value * 64 + (byte.toNat - 0x80)

theorem reads_some_cons (sequence : Unfinished) (byte : UInt8) (rest : List UInt8) :
    reads (some sequence) (byte :: rest) =
      if sequence.low ≤ byte ∧ byte ≤ sequence.high then
        match sequence.further with
        | 0 => some (Char.ofNat (sequence.extended byte)) :: reads none rest
        | further + 1 => reads (some ⟨sequence.extended byte, further, 0x80, 0xBF⟩) rest
      else none :: reads none (byte :: rest) := by
  change (Decoder.pushAll (Decoder.push ⟨[], some sequence⟩ byte) rest).finish = _
  simp only [Decoder.push]
  split
  · cases sequence.further with
    | zero => exact finish_pushAll [some _] none rest
    | succ further => rfl
  · change
      (Decoder.pushAll (Decoder.restart (Decoder.behind ⟨[], none⟩ [none]) byte) rest).finish = _
    rw [Decoder.restart_behind, Decoder.pushAll_behind, Decoder.finish_behind]
    rfl

/-! ## Sequences -/

/-- Bytes that complete a sequence, with the value that they give it. -/
inductive Completes : Unfinished → List UInt8 → Nat → Prop where
  | last {sequence : Unfinished} {byte : UInt8} (none_further : sequence.further = 0)
      (within : sequence.low ≤ byte ∧ byte ≤ sequence.high) :
      Completes sequence [byte] (sequence.extended byte)
  | more {sequence : Unfinished} {further : Nat} {byte : UInt8} {bytes : List UInt8} {value : Nat}
      (some_further : sequence.further = further + 1)
      (within : sequence.low ≤ byte ∧ byte ≤ sequence.high)
      (rest : Completes ⟨sequence.extended byte, further, 0x80, 0xBF⟩ bytes value) :
      Completes sequence (byte :: bytes) value

theorem Completes.reads_append {sequence : Unfinished} {bytes : List UInt8} {value : Nat}
    (completes : Completes sequence bytes value) (rest : List UInt8) :
    reads (some sequence) (bytes ++ rest) = some (Char.ofNat value) :: reads none rest := by
  induction completes with
  | last done within =>
      rw [List.singleton_append, reads_some_cons, if_pos within, done]
  | more further within _ ih =>
      rw [List.cons_append, reads_some_cons, if_pos within, further]
      exact ih

/-- A sequence is completed, or it ends in a fault and what follows it is read on its own. -/
theorem completes_or_reads_eq_none_cons (sequence : Unfinished) (bytes : List UInt8) :
    (∃ front rest value, bytes = front ++ rest ∧ Completes sequence front value) ∨
      ∃ front rest, bytes = front ++ rest ∧
        reads (some sequence) bytes = none :: reads none rest := by
  induction bytes generalizing sequence with
  | nil => exact .inr ⟨[], [], rfl, rfl⟩
  | cons byte rest ih =>
      by_cases within : sequence.low ≤ byte ∧ byte ≤ sequence.high
      · cases further : sequence.further with
        | zero => exact .inl ⟨[byte], rest, _, rfl, .last further within⟩
        | succ count =>
            obtain ⟨front, later, value, rfl, completes⟩ | ⟨front, later, rfl, fault⟩ :=
              ih ⟨sequence.extended byte, count, 0x80, 0xBF⟩
            · exact .inl ⟨byte :: front, later, value, rfl, .more further within completes⟩
            · refine .inr ⟨byte :: front, later, rfl, ?_⟩
              rw [reads_some_cons, if_pos within, further]
              exact fault
      · refine .inr ⟨[], byte :: rest, rfl, ?_⟩
        rw [reads_some_cons, if_neg within]

/-! ### Bytes that begin a sequence -/

theorem lead_one {value : Nat} (below : value < 0x80) :
    lead (UInt8.ofNat value) = .whole (Char.ofNat value) := by
  revert value
  decide

theorem lead_two {value : Nat} (below : value < 32) (least : 2 ≤ value) :
    lead (UInt8.ofNat (value + 192)) = .opens ⟨value, 0, 0x80, 0xBF⟩ := by
  revert value
  decide

theorem lead_three {value : Nat} (below : value < 16) :
    lead (UInt8.ofNat (value + 224)) =
      .opens ⟨value, 1, if value = 0 then 0xA0 else 0x80, if value = 13 then 0x9F else 0xBF⟩ := by
  revert value
  decide

theorem lead_four {value : Nat} (below : value < 5) :
    lead (UInt8.ofNat (value + 240)) =
      .opens ⟨value, 2, if value = 0 then 0x90 else 0x80, if value = 4 then 0x8F else 0xBF⟩ := by
  revert value
  decide

theorem lead_stray {byte : UInt8}
    (apart : 0x80 ≤ byte.toNat ∧ byte.toNat < 0xC2 ∨ 0xF5 ≤ byte.toNat) :
    lead byte = .stray := by
  simp only [lead, UInt8.lt_iff_toNat_lt, UInt8.reduceToNat]
  rcases apart with ⟨least, below⟩ | high
  · rw [if_neg (by omega), if_pos below]
  · rw [if_neg (by omega), if_neg (by omega), if_neg (by omega), if_neg (by omega),
      if_neg (by omega)]

theorem lead_cases (byte : UInt8) :
    lead byte = .stray ∨ (∃ value, value < 0x80 ∧ byte = UInt8.ofNat value) ∨
      (∃ value, value < 32 ∧ 2 ≤ value ∧ byte = UInt8.ofNat (value + 192)) ∨
      (∃ value, value < 16 ∧ byte = UInt8.ofNat (value + 224)) ∨
      ∃ value, value < 5 ∧ byte = UInt8.ofNat (value + 240) := by
  have above (base : Nat) (least : base ≤ byte.toNat) :
      byte = UInt8.ofNat (byte.toNat - base + base) := by
    rw [Nat.sub_add_cancel least, UInt8.ofNat_toNat]
  rcases Nat.lt_or_ge byte.toNat 0x80 with one | high
  · exact .inr (.inl ⟨byte.toNat, one, UInt8.ofNat_toNat.symm⟩)
  rcases Nat.lt_or_ge byte.toNat 0xC2 with stray | two
  · exact .inl (lead_stray (.inl ⟨high, stray⟩))
  rcases Nat.lt_or_ge byte.toNat 0xE0 with below | three
  · exact .inr (.inr (.inl ⟨byte.toNat - 192, by omega, by omega, above 192 (by omega)⟩))
  rcases Nat.lt_or_ge byte.toNat 0xF0 with below | four
  · exact .inr (.inr (.inr (.inl ⟨byte.toNat - 224, by omega, above 224 three⟩)))
  rcases Nat.lt_or_ge byte.toNat 0xF5 with below | stray
  · exact .inr (.inr (.inr (.inr ⟨byte.toNat - 240, by omega, above 240 four⟩)))
  · exact .inl (lead_stray (.inr stray))

/-! ### Bytes that continue one -/

private theorem toNat_continuation {digit : Nat} (below : digit < 64) :
    (UInt8.ofNat (digit + 128)).toNat = digit + 128 := by
  rw [UInt8.toNat_ofNat']
  omega

private theorem within_continuation {low high : UInt8} {digit : Nat} (below : digit < 64)
    (least : low.toNat ≤ digit + 128) (most : digit + 128 ≤ high.toNat) :
    low ≤ UInt8.ofNat (digit + 128) ∧ UInt8.ofNat (digit + 128) ≤ high := by
  rw [UInt8.le_iff_toNat_le, UInt8.le_iff_toNat_le, toNat_continuation below]
  exact ⟨least, most⟩

private theorem extended_continuation (sequence : Unfinished) {digit : Nat} (below : digit < 64) :
    sequence.extended (UInt8.ofNat (digit + 128)) = sequence.value * 64 + digit := by
  have same := toNat_continuation below
  unfold Unfinished.extended
  omega

private theorem exists_continuation {low high byte : UInt8} (within : low ≤ byte ∧ byte ≤ high)
    (least : 0x80 ≤ low.toNat) (most : high.toNat ≤ 0xBF) :
    ∃ digit, digit < 64 ∧ byte = UInt8.ofNat (digit + 128) ∧
      low.toNat ≤ digit + 128 ∧ digit + 128 ≤ high.toNat := by
  rw [UInt8.le_iff_toNat_le, UInt8.le_iff_toNat_le] at within
  have restored : byte.toNat - 128 + 128 = byte.toNat := by omega
  refine ⟨byte.toNat - 128, by omega, ?_, by omega, by omega⟩
  rw [restored, UInt8.ofNat_toNat]

theorem Completes.last_digit {sequence : Unfinished} {digit : Nat} (below : digit < 64)
    (done : sequence.further = 0) (least : sequence.low.toNat ≤ digit + 128)
    (most : digit + 128 ≤ sequence.high.toNat) :
    Completes sequence [UInt8.ofNat (digit + 128)] (sequence.value * 64 + digit) := by
  rw [← extended_continuation sequence below]
  exact .last done (within_continuation below least most)

theorem Completes.more_digit {sequence : Unfinished} {further digit value : Nat}
    {bytes : List UInt8} (below : digit < 64) (more : sequence.further = further + 1)
    (least : sequence.low.toNat ≤ digit + 128) (most : digit + 128 ≤ sequence.high.toNat)
    (rest : Completes ⟨sequence.value * 64 + digit, further, 0x80, 0xBF⟩ bytes value) :
    Completes sequence (UInt8.ofNat (digit + 128) :: bytes) value := by
  rw [← extended_continuation sequence below] at rest
  exact .more more (within_continuation below least most) rest

theorem Completes.digit_cases {sequence : Unfinished} {bytes : List UInt8} {value : Nat}
    (completes : Completes sequence bytes value) (least : 0x80 ≤ sequence.low.toNat)
    (most : sequence.high.toNat ≤ 0xBF) :
    ∃ digit rest, bytes = UInt8.ofNat (digit + 128) :: rest ∧ digit < 64 ∧
      sequence.low.toNat ≤ digit + 128 ∧ digit + 128 ≤ sequence.high.toNat ∧
      (sequence.further = 0 ∧ rest = [] ∧ value = sequence.value * 64 + digit ∨
        ∃ further, sequence.further = further + 1 ∧
          Completes ⟨sequence.value * 64 + digit, further, 0x80, 0xBF⟩ rest value) := by
  cases completes with
  | last done within =>
      obtain ⟨digit, below, rfl, low, high⟩ := exists_continuation within least most
      exact ⟨digit, [], rfl, below, low, high, .inl ⟨done, rfl, extended_continuation _ below⟩⟩
  | @more _ further _ bytes _ more within rest =>
      obtain ⟨digit, below, rfl, low, high⟩ := exists_continuation within least most
      rw [extended_continuation _ below] at rest
      exact ⟨digit, bytes, rfl, below, low, high, .inr ⟨further, more, rest⟩⟩

/-! ### Characters and their bytes -/

private theorem toNat_ofNat_of_valid {value : Nat} (valid : value.isValidChar) :
    (Char.ofNat value).val.toNat = value := by
  rw [Char.ofNat, dif_pos valid]
  rfl

theorem encode_one {value : Nat} (below : value < 0x80) :
    String.utf8EncodeChar (Char.ofNat value) = [UInt8.ofNat value] := by
  have valid : value.isValidChar := .inl (by omega)
  have same := toNat_ofNat_of_valid valid
  simp only [String.utf8EncodeChar, same]
  rw [if_pos (by omega)]

theorem encode_of_whole {byte : UInt8} {character : Char} (whole : lead byte = .whole character) :
    String.utf8EncodeChar character = [byte] := by
  rcases lead_cases byte with stray | ⟨value, below, rfl⟩ | ⟨value, below, least, rfl⟩ |
    ⟨value, below, rfl⟩ | ⟨value, below, rfl⟩
  · exact absurd (stray.symm.trans whole) nofun
  · cases (lead_one below).symm.trans whole
    exact encode_one below
  · exact absurd ((lead_two below least).symm.trans whole) nofun
  · exact absurd ((lead_three below).symm.trans whole) nofun
  · exact absurd ((lead_four below).symm.trans whole) nofun

theorem encode_two (first second : Nat) (below : first < 32) (least : 2 ≤ first)
    (small : second < 64) :
    String.utf8EncodeChar (Char.ofNat (first * 64 + second)) =
      [UInt8.ofNat (first + 192), UInt8.ofNat (second + 128)] := by
  have valid : (first * 64 + second).isValidChar := .inl (by omega)
  have same := toNat_ofNat_of_valid valid
  simp only [String.utf8EncodeChar, same]
  rw [if_neg (by omega), if_pos (by omega)]
  congr 3 <;> omega

theorem encode_three (first second third : Nat) (below : first < 16) (small : second < 64)
    (small' : third < 64) (least : first = 0 → 32 ≤ second) (most : first = 13 → second < 32) :
    String.utf8EncodeChar (Char.ofNat ((first * 64 + second) * 64 + third)) =
      [UInt8.ofNat (first + 224), UInt8.ofNat (second + 128), UInt8.ofNat (third + 128)] := by
  have valid : ((first * 64 + second) * 64 + third).isValidChar := by
    unfold Nat.isValidChar
    omega
  have same := toNat_ofNat_of_valid valid
  simp only [String.utf8EncodeChar, same]
  rw [if_neg (by omega), if_neg (by omega), if_pos (by omega)]
  congr 4 <;> omega

theorem encode_four (first second third fourth : Nat) (below : first < 5) (small : second < 64)
    (small' : third < 64) (small'' : fourth < 64) (least : first = 0 → 16 ≤ second)
    (most : first = 4 → second < 16) :
    String.utf8EncodeChar (Char.ofNat (((first * 64 + second) * 64 + third) * 64 + fourth)) =
      [UInt8.ofNat (first + 240), UInt8.ofNat (second + 128), UInt8.ofNat (third + 128),
        UInt8.ofNat (fourth + 128)] := by
  have valid : (((first * 64 + second) * 64 + third) * 64 + fourth).isValidChar := by
    unfold Nat.isValidChar
    omega
  have same := toNat_ofNat_of_valid valid
  simp only [String.utf8EncodeChar, same]
  rw [if_neg (by omega), if_neg (by omega), if_neg (by omega)]
  congr 5 <;> omega

/-- The first byte of a character that takes several opens a sequence, and the others
complete it. -/
theorem exists_opens_completes {character : Char} (beyond : 0x80 ≤ character.toNat) :
    ∃ byte sequence tail, String.utf8EncodeChar character = byte :: tail ∧
      lead byte = .opens sequence ∧ Completes sequence tail character.toNat := by
  have valid : character.toNat < 0xD800 ∨
      0xDFFF < character.toNat ∧ character.toNat < 0x110000 := character.valid
  have plain (value digit : Nat) (below : digit < 64) :
      Completes ⟨value, 0, 0x80, 0xBF⟩ [UInt8.ofNat (digit + 128)] (value * 64 + digit) :=
    .last_digit below rfl (by simp) (by simp; omega)
  rcases Nat.lt_or_ge character.toNat 0x800 with two | beyondTwo
  · obtain ⟨first, second, small, same⟩ : ∃ first second, second < 64 ∧
        character.toNat = first * 64 + second :=
      ⟨character.toNat / 64, character.toNat % 64, by omega, by omega⟩
    have encoded := encode_two first second (by omega) (by omega) small
    rw [← same, Char.ofNat_toNat] at encoded
    refine ⟨_, _, _, encoded, lead_two (by omega) (by omega), ?_⟩
    rw [same]
    exact plain first second small
  rcases Nat.lt_or_ge character.toNat 0x10000 with three | four
  · obtain ⟨first, second, third, small, small', same⟩ : ∃ first second third, second < 64 ∧
        third < 64 ∧ character.toNat = (first * 64 + second) * 64 + third :=
      ⟨character.toNat / 4096, character.toNat / 64 % 64, character.toNat % 64, by omega,
        by omega, by omega⟩
    have encoded := encode_three first second third (by omega) small small' (by omega) (by omega)
    rw [← same, Char.ofNat_toNat] at encoded
    refine ⟨_, _, _, encoded, lead_three (by omega), ?_⟩
    rw [same]
    refine .more_digit small rfl ?_ ?_ (plain _ third small')
    · dsimp only
      split
      · simp
        omega
      · simp
    · dsimp only
      split <;> (simp; omega)
  · obtain ⟨first, second, third, fourth, small, small', small'', same⟩ :
        ∃ first second third fourth, second < 64 ∧ third < 64 ∧ fourth < 64 ∧
          character.toNat = ((first * 64 + second) * 64 + third) * 64 + fourth :=
      ⟨character.toNat / 262144, character.toNat / 4096 % 64, character.toNat / 64 % 64,
        character.toNat % 64, by omega, by omega, by omega, by omega⟩
    have encoded := encode_four first second third fourth (by omega) small small' small''
      (by omega) (by omega)
    rw [← same, Char.ofNat_toNat] at encoded
    refine ⟨_, _, _, encoded, lead_four (by omega), ?_⟩
    rw [same]
    refine .more_digit small rfl ?_ ?_ (.more_digit small' rfl ?_ ?_ (plain _ fourth small''))
    · dsimp only
      split
      · simp
        omega
      · simp
    · dsimp only
      split <;> (simp; omega)
    · simp
    · simp
      omega

theorem encode_of_completes {byte : UInt8} {sequence : Unfinished} {tail : List UInt8}
    {value : Nat} (opens : lead byte = .opens sequence)
    (completes : Completes sequence tail value) :
    String.utf8EncodeChar (Char.ofNat value) = byte :: tail := by
  rcases lead_cases byte with stray | ⟨first, below, rfl⟩ | ⟨first, below, least, rfl⟩ |
    ⟨first, below, rfl⟩ | ⟨first, below, rfl⟩
  · rw [stray] at opens
    cases opens
  · rw [lead_one below] at opens
    cases opens
  · rw [lead_two below least] at opens
    cases opens
    obtain ⟨second, _, rfl, small, _, _, ⟨_, rfl, rfl⟩ | ⟨_, more, _⟩⟩ :=
      completes.digit_cases (by simp) (by simp)
    · exact encode_two _ _ below least small
    · cases more
  · rw [lead_three below] at opens
    cases opens
    obtain ⟨second, _, rfl, small, low, high, ⟨done, _⟩ | ⟨_, ⟨⟩, completes⟩⟩ :=
      completes.digit_cases (by dsimp only; split <;> simp) (by dsimp only; split <;> simp)
    · cases done
    obtain ⟨third, _, rfl, small', _, _, ⟨_, rfl, rfl⟩ | ⟨_, more, _⟩⟩ :=
      completes.digit_cases (by simp) (by simp)
    · refine encode_three _ _ _ below small small' ?_ ?_
      · rintro rfl
        have least : 160 ≤ second + 128 := low
        omega
      · rintro rfl
        have most : second + 128 ≤ 159 := high
        omega
    · cases more
  · rw [lead_four below] at opens
    cases opens
    obtain ⟨second, _, rfl, small, low, high, ⟨done, _⟩ | ⟨_, ⟨⟩, completes⟩⟩ :=
      completes.digit_cases (by dsimp only; split <;> simp) (by dsimp only; split <;> simp)
    · cases done
    obtain ⟨third, _, rfl, small', _, _, ⟨done, _⟩ | ⟨_, ⟨⟩, completes⟩⟩ :=
      completes.digit_cases (by simp) (by simp)
    · cases done
    obtain ⟨fourth, _, rfl, small'', _, _, ⟨_, rfl, rfl⟩ | ⟨_, more, _⟩⟩ :=
      completes.digit_cases (by simp) (by simp)
    · refine encode_four _ _ _ _ below small small' small'' ?_ ?_
      · rintro rfl
        have least : 144 ≤ second + 128 := low
        omega
      · rintro rfl
        have most : second + 128 ≤ 143 := high
        omega
    · cases more

end PipeCast.Text.Utf8
