import PipeCast.Proofs.Text.Utf8.Sequence

/-!
# What the decoder reads

What has been encoded is read back, whatever comes after it. Bytes without a fault are
the encoding of what is read from them. Cutting the input leaves everything that is
read as it is, unless the cut goes through a sequence: then one item becomes a fault
before the cut and at least one after it.
-/

set_option autoImplicit false

namespace PipeCast.Text.Utf8

/-! ## What has been encoded is read back -/

theorem reads_utf8EncodeChar_append (character : Char) (rest : List UInt8) :
    reads none (String.utf8EncodeChar character ++ rest) = some character :: reads none rest := by
  rcases Nat.lt_or_ge character.toNat 0x80 with ascii | beyond
  · have encoded := encode_one ascii
    rw [Char.ofNat_toNat] at encoded
    rw [encoded, List.singleton_append, reads_none_cons, lead_one ascii, Char.ofNat_toNat]
  · obtain ⟨byte, sequence, tail, encoded, opens, completes⟩ := exists_opens_completes beyond
    rw [encoded, List.cons_append, reads_none_cons, opens]
    exact (completes.reads_append rest).trans (by rw [Char.ofNat_toNat])

@[simp] theorem encode_append (first second : List Char) :
    encode (first ++ second) = encode first ++ encode second :=
  List.flatMap_append

theorem decode_encode_append (text : List Char) (rest : List UInt8) :
    decode (encode text ++ rest) = text.map some ++ decode rest := by
  induction text with
  | nil => rfl
  | cons character text ih =>
      rw [encode, List.flatMap_cons, List.append_assoc, decode_eq_reads,
        reads_utf8EncodeChar_append]
      exact congrArg (some character :: ·) ih

theorem decode_encode (text : List Char) : decode (encode text) = text.map some := by
  have read := decode_encode_append text []
  rwa [List.append_nil, decode_eq_reads [], reads_none_nil, List.append_nil] at read

theorem decodeLossy_encode_append (text : List Char) (rest : List UInt8) :
    decodeLossy (encode text ++ rest) = text ++ decodeLossy rest := by
  rw [decodeLossy, decode_encode_append, List.map_append, List.map_map]
  exact congrArg (· ++ _) (List.map_id text)

theorem decodeLossy_encode (text : List Char) : decodeLossy (encode text) = text := by
  have read := decodeLossy_encode_append text []
  rwa [List.append_nil, show decodeLossy [] = [] from rfl, List.append_nil] at read

theorem encode_eq_nil_iff {text : List Char} : encode text = [] ↔ text = [] := by
  constructor
  · intro empty
    have read := decodeLossy_encode text
    rw [empty] at read
    exact read.symm
  · rintro rfl
    rfl

theorem encode_replicate (count : Nat) {value : Nat} (below : value < 0x80) :
    encode (List.replicate count (Char.ofNat value)) =
      List.replicate count (UInt8.ofNat value) := by
  rw [encode, List.flatMap_replicate, encode_one below,
    List.flatten_replicate_singleton]

/-! ## Bytes fall into characters and faults -/

/-- Bytes that fall, one after another, into the bytes of characters and into faults of at
least one byte each. -/
inductive FallsInto : List UInt8 → List (Option Char) → Prop where
  | done : FallsInto [] []
  | character {rest : List UInt8} {items : List (Option Char)} (character : Char)
      (later : FallsInto rest items) :
      FallsInto (String.utf8EncodeChar character ++ rest) (some character :: items)
  | fault {front rest : List UInt8} {items : List (Option Char)} (nonempty : front ≠ [])
      (later : FallsInto rest items) : FallsInto (front ++ rest) (none :: items)

theorem utf8EncodeChar_ne_nil (character : Char) : String.utf8EncodeChar character ≠ [] := by
  intro empty
  have read := reads_utf8EncodeChar_append character []
  rw [empty] at read
  cases read

theorem fallsInto_decode (bytes : List UInt8) : FallsInto bytes (decode bytes) := by
  -- Every item takes a byte at least, so what follows it is shorter.
  generalize measure : bytes.length = count
  induction count using Nat.strongRecOn generalizing bytes with
  | ind count ih =>
      cases bytes with
      | nil => exact .done
      | cons byte rest =>
          have later (front back : List UInt8) (split : byte :: rest = front ++ back)
              (nonempty : front ≠ []) : FallsInto back (reads none back) := by
            have taken := List.length_pos_iff.mpr nonempty
            have total := congrArg List.length split
            rw [List.length_append] at total
            exact ih back.length (by omega) back rfl
          have fault (front back : List UInt8) (split : byte :: rest = front ++ back)
              (nonempty : front ≠ [])
              (read : reads none (byte :: rest) = none :: reads none back) :
              FallsInto (byte :: rest) (reads none (byte :: rest)) := by
            rw [read, split]
            exact .fault nonempty (later front back split nonempty)
          rw [decode_eq_reads]
          cases begun : lead byte with
          | whole character =>
              have encoded := encode_of_whole begun
              have split : byte :: rest = String.utf8EncodeChar character ++ rest := by
                rw [encoded]
                rfl
              rw [split, reads_utf8EncodeChar_append]
              exact .character character (later _ rest split (utf8EncodeChar_ne_nil character))
          | opens sequence =>
              rcases completes_or_reads_eq_none_cons sequence rest with
                ⟨front, back, value, whole, completes⟩ | ⟨front, back, whole, read⟩
              · have encoded := encode_of_completes begun completes
                have split : byte :: rest =
                    String.utf8EncodeChar (Char.ofNat value) ++ back := by
                  rw [encoded, whole]
                  rfl
                rw [split, reads_utf8EncodeChar_append]
                exact .character _ (later _ back split (utf8EncodeChar_ne_nil _))
              · refine fault (byte :: front) back (congrArg (byte :: ·) whole)
                  (List.cons_ne_nil byte front) ?_
                rw [reads_none_cons, begun]
                exact read
          | stray =>
              refine fault [byte] rest rfl (List.cons_ne_nil byte []) ?_
              rw [reads_none_cons, begun]

namespace FallsInto

variable {bytes : List UInt8} {items : List (Option Char)}

theorem length_le (falls : FallsInto bytes items) : items.length ≤ bytes.length := by
  induction falls with
  | done => exact Nat.le_refl 0
  | character character _ ih =>
      have taken := List.length_pos_iff.mpr (utf8EncodeChar_ne_nil character)
      rw [List.length_cons, List.length_append]
      omega
  | fault nonempty _ ih =>
      have taken := List.length_pos_iff.mpr nonempty
      rw [List.length_cons, List.length_append]
      omega

/-- Only a replacement character can be longer than what it stands for, and at most three
times as long. -/
theorem length_encode_le (falls : FallsInto bytes items) :
    (encode (items.map (·.getD replacement))).length ≤ 3 * bytes.length := by
  induction falls with
  | done => exact Nat.le_refl 0
  | @character rest items character _ ih =>
      have encoded : encode ((some character :: items).map (·.getD replacement)) =
          String.utf8EncodeChar character ++ encode (items.map (·.getD replacement)) := rfl
      rw [encoded, List.length_append, List.length_append]
      omega
  | @fault front rest items nonempty _ ih =>
      have taken := List.length_pos_iff.mpr nonempty
      have three : (String.utf8EncodeChar replacement).length = 3 := by decide
      have encoded : encode ((none :: items).map (·.getD replacement)) =
          String.utf8EncodeChar replacement ++ encode (items.map (·.getD replacement)) := rfl
      rw [encoded, List.length_append, List.length_append, three]
      omega

theorem ne_nil (falls : FallsInto bytes items) (nonempty : bytes ≠ []) : items ≠ [] := by
  cases falls with
  | done => exact absurd rfl nonempty
  | character => exact List.cons_ne_nil _ _
  | fault => exact List.cons_ne_nil _ _

/-- The bytes of a character that is read stand next to each other. -/
theorem infix_of_mem (falls : FallsInto bytes items) {character : Char}
    (member : some character ∈ items) : String.utf8EncodeChar character <:+: bytes := by
  induction falls with
  | done => cases member
  | @character rest items first _ ih =>
      rcases List.mem_cons.mp member with same | later
      · cases same
        exact (List.prefix_append _ rest).isInfix
      · exact (ih later).trans (List.suffix_append _ rest).isInfix
  | @fault front rest items _ _ ih =>
      rcases List.mem_cons.mp member with same | later
      · cases same
      · exact (ih later).trans (List.suffix_append _ rest).isInfix

theorem eq_encode (falls : FallsInto bytes items) {text : List Char}
    (sound : items = text.map some) : bytes = encode text := by
  induction falls generalizing text with
  | done =>
      rw [List.map_eq_nil_iff.mp sound.symm]
      rfl
  | character character _ ih =>
      obtain ⟨first, later, rfl, same, rest⟩ := List.map_eq_cons_iff.mp sound.symm
      cases same
      rw [ih rest.symm]
      rfl
  | fault =>
      obtain ⟨_, _, _, same, _⟩ := List.map_eq_cons_iff.mp sound.symm
      cases same

end FallsInto

theorem encode_of_decode {bytes : List UInt8} {text : List Char}
    (read : decode bytes = text.map some) : bytes = encode text :=
  (fallsInto_decode bytes).eq_encode read

/-- The decoder accepts exactly what the encoder writes. -/
theorem decode_eq_map_some_iff {bytes : List UInt8} {text : List Char} :
    decode bytes = text.map some ↔ bytes = encode text := by
  constructor
  · exact encode_of_decode
  · rintro rfl
    exact decode_encode text

theorem eq_map_some_of_all_isSome {items : List (Option Char)}
    (sound : items.all Option.isSome = true) : items = (items.filterMap id).map some := by
  induction items with
  | nil => rfl
  | cons item rest ih =>
      rw [List.all_cons, Bool.and_eq_true] at sound
      obtain ⟨present, later⟩ := sound
      obtain ⟨character, rfl⟩ := Option.isSome_iff_exists.mp present
      exact congrArg (some character :: ·) (ih later)

theorem decodeStrict?_eq_some_iff {bytes : List UInt8} {text : List Char} :
    decodeStrict? bytes = some text ↔ bytes = encode text := by
  rw [← decode_eq_map_some_iff, decodeStrict?]
  constructor
  · intro found
    split at found
    · rename_i sound
      cases found
      exact eq_map_some_of_all_isSome sound
    · cases found
  · intro read
    simp [read]

theorem readStrict?_eq_some_iff {bytes : List UInt8} {text : String} :
    readStrict? bytes = some text ↔ bytes = bytesOf text := by
  rw [bytesOf, ← decodeStrict?_eq_some_iff, readStrict?, Option.map_eq_some_iff]
  constructor
  · rintro ⟨characters, found, rfl⟩
    rw [found, String.toList_ofList]
  · intro found
    exact ⟨text.toList, found, String.ofList_toList⟩

/-! ## How much is read -/

theorem length_decodeLossy_le (bytes : List UInt8) :
    (decodeLossy bytes).length ≤ bytes.length := by
  rw [decodeLossy, List.length_map]
  exact (fallsInto_decode bytes).length_le

theorem length_decodeLossy_pos {bytes : List UInt8} (nonempty : bytes ≠ []) :
    0 < (decodeLossy bytes).length := by
  rw [decodeLossy, List.length_map]
  exact List.length_pos_iff.mpr ((fallsInto_decode bytes).ne_nil nonempty)

theorem length_encode_decodeLossy_le (bytes : List UInt8) :
    (encode (decodeLossy bytes)).length ≤ 3 * bytes.length :=
  (fallsInto_decode bytes).length_encode_le

/-- A character below U+0080 is read only from its own byte. -/
theorem ofNat_mem_of_mem_decodeLossy {bytes : List UInt8} {value : Nat} (below : value < 0x80)
    (member : Char.ofNat value ∈ decodeLossy bytes) : UInt8.ofNat value ∈ bytes := by
  obtain ⟨item, read, same⟩ := List.mem_map.mp member
  cases item with
  | none =>
      have beyond : ∀ value < 0x80, replacement ≠ Char.ofNat value := by decide
      exact absurd same (beyond value below)
  | some character =>
      have found : character = Char.ofNat value := same
      have stands := (fallsInto_decode bytes).infix_of_mem (found ▸ read)
      rw [encode_one below] at stands
      exact stands.subset List.mem_cons_self

/-! ## Cutting the input -/

/-- A sequence takes nothing that could begin a character. -/
structure Unfinished.Bounded (sequence : Unfinished) : Prop where
  low : 0x80 ≤ sequence.low
  high : sequence.high ≤ 0xBF

theorem bounded_of_lead {byte : UInt8} {sequence : Unfinished}
    (opens : lead byte = .opens sequence) : sequence.Bounded := by
  rcases lead_cases byte with stray | ⟨value, below, rfl⟩ | ⟨value, below, least, rfl⟩ |
    ⟨value, below, rfl⟩ | ⟨value, below, rfl⟩
  · exact absurd (stray.symm.trans opens) nofun
  · exact absurd ((lead_one below).symm.trans opens) nofun
  · rw [lead_two below least] at opens
    cases opens
    exact ⟨UInt8.le_refl _, UInt8.le_refl _⟩
  · rw [lead_three below] at opens
    cases opens
    constructor <;> dsimp only <;> split <;> decide
  · rw [lead_four below] at opens
    cases opens
    constructor <;> dsimp only <;> split <;> decide

theorem Unfinished.Bounded.lead_of_within {sequence : Unfinished} (bounded : sequence.Bounded)
    {byte : UInt8} (within : sequence.low ≤ byte ∧ byte ≤ sequence.high) :
    lead byte = .stray := by
  have least := UInt8.le_iff_toNat_le.mp (UInt8.le_trans bounded.low within.1)
  have most := UInt8.le_iff_toNat_le.mp (UInt8.le_trans within.2 bounded.high)
  exact lead_stray (.inl ⟨least, Nat.lt_of_le_of_lt most (by decide)⟩)

/-- In the middle of a sequence bytes give one item, and then what they give on their own
but for the bytes that the sequence takes, each of which would be a fault. -/
theorem Unfinished.Bounded.exists_reads {sequence : Unfinished} (bounded : sequence.Bounded)
    (bytes : List UInt8) :
    ∃ item strays later, reads (some sequence) bytes = item :: later ∧
      reads none bytes = List.replicate strays none ++ later ∧ (strays = 0 → item = none) := by
  induction bytes generalizing sequence with
  | nil => exact ⟨none, 0, [], rfl, rfl, fun _ => rfl⟩
  | cons byte rest ih =>
      rw [reads_some_cons]
      split
      · rename_i within
        rw [reads_none_cons, bounded.lead_of_within within]
        cases sequence.further with
        | zero => exact ⟨_, 1, reads none rest, rfl, rfl, nofun⟩
        | succ further =>
            have plain : Unfinished.Bounded ⟨sequence.extended byte, further, 0x80, 0xBF⟩ :=
              ⟨UInt8.le_refl _, UInt8.le_refl _⟩
            obtain ⟨item, strays, later, found, alone, _⟩ := ih plain
            exact ⟨item, strays + 1, later, found, by rw [alone]; rfl, nofun⟩
      · exact ⟨none, 0, reads none (byte :: rest), rfl, rfl, fun _ => rfl⟩

/-- What a cut through a sequence does: where the whole has one item, the part before the
cut ends with a fault, and the part after it begins with at least one. -/
structure Torn (whole before after : List (Option Char)) : Prop where
  torn : ∃ earlier item strays later, whole = earlier ++ item :: later ∧
    before = earlier ++ [none] ∧ after = List.replicate (strays + 1) none ++ later

theorem Torn.cons {whole before after : List (Option Char)} (torn : Torn whole before after)
    (item : Option Char) : Torn (item :: whole) (item :: before) after := by
  obtain ⟨earlier, inner, strays, later, rfl, rfl, rfl⟩ := torn
  exact ⟨item :: earlier, inner, strays, later, rfl, rfl, rfl⟩

private theorem bounded_none (sequence : Unfinished) (absent : none = some sequence) :
    sequence.Bounded := by
  cases absent

private theorem reads_append {unfinished : Option Unfinished}
    (bounded : ∀ sequence, unfinished = some sequence → sequence.Bounded)
    (first second : List UInt8) :
    reads unfinished (first ++ second) = reads unfinished first ++ reads none second ∨
      Torn (reads unfinished (first ++ second)) (reads unfinished first) (reads none second) := by
  induction first generalizing unfinished with
  | nil =>
      cases unfinished with
      | none => exact .inl rfl
      | some sequence =>
          obtain ⟨item, strays, later, found, alone, fault⟩ := (bounded _ rfl).exists_reads second
          cases strays with
          | zero =>
              left
              rw [List.nil_append, found, alone, fault rfl]
              rfl
          | succ strays => exact .inr ⟨[], item, strays, later, found, rfl, alone⟩
  | cons byte rest ih =>
      have idle : reads none (byte :: rest ++ second) =
            reads none (byte :: rest) ++ reads none second ∨
          Torn (reads none (byte :: rest ++ second)) (reads none (byte :: rest))
            (reads none second) := by
        rw [List.cons_append, reads_none_cons, reads_none_cons]
        cases begun : lead byte with
        | whole character =>
            exact (ih bounded_none).imp (congrArg _) (Torn.cons · _)
        | opens sequence =>
            refine ih ?_
            intro other same
            exact Option.some.inj same ▸ bounded_of_lead begun
        | stray => exact (ih bounded_none).imp (congrArg _) (Torn.cons · _)
      cases unfinished with
      | none => exact idle
      | some sequence =>
          rw [List.cons_append, reads_some_cons, reads_some_cons]
          split
          · cases sequence.further with
            | zero => exact (ih bounded_none).imp (congrArg _) (Torn.cons · _)
            | succ further =>
                refine ih ?_
                intro other same
                rw [← Option.some.inj same]
                exact ⟨UInt8.le_refl _, UInt8.le_refl _⟩
          · exact idle.imp (congrArg _) (Torn.cons · _)

/-- A cut leaves everything that is read as it is, unless it goes through a sequence. -/
theorem decode_append (first second : List UInt8) :
    decode (first ++ second) = decode first ++ decode second ∨
      Torn (decode (first ++ second)) (decode first) (decode second) :=
  reads_append bounded_none first second

/-- A byte below 0x80 stands for itself wherever it is. -/
theorem decode_append_ascii_cons (earlier later : List UInt8) {value : Nat}
    (below : value < 0x80) :
    decode (earlier ++ UInt8.ofNat value :: later) =
      decode earlier ++ some (Char.ofNat value) :: decode later := by
  have begins : decode (UInt8.ofNat value :: later) = some (Char.ofNat value) :: decode later := by
    rw [decode_eq_reads, reads_none_cons, lead_one below]
    rfl
  rcases decode_append earlier (UInt8.ofNat value :: later) with
    cut | ⟨_, _, strays, _, _, _, after⟩
  · rw [cut, begins]
  · rw [begins, List.replicate_succ, List.cons_append] at after
    cases after

/-- What has been encoded is read back, whatever comes before it: neither a sequence that is
cut short nor a stray byte takes anything of it. -/
theorem decode_append_encode (bytes : List UInt8) (text : List Char) :
    decode (bytes ++ encode text) = decode bytes ++ text.map some := by
  rcases decode_append bytes (encode text) with cut | ⟨_, _, strays, later, _, _, after⟩
  · rw [cut, decode_encode]
  · have fault : none ∈ text.map some := by
      rw [← decode_encode, after]
      exact List.mem_append_left _ List.mem_cons_self
    simp at fault

theorem decodeLossy_append_encode (bytes : List UInt8) (text : List Char) :
    decodeLossy (bytes ++ encode text) = decodeLossy bytes ++ text := by
  rw [decodeLossy, decode_append_encode, List.map_append, List.map_map]
  exact congrArg (_ ++ ·) (List.map_id text)

theorem ofNat_mem_of_mem_encode {text : List Char} {value : Nat} (below : value < 0x80)
    (member : UInt8.ofNat value ∈ encode text) : Char.ofNat value ∈ text := by
  obtain ⟨earlier, later, split⟩ := List.append_of_mem member
  have read := decode_encode text
  rw [split, decode_append_ascii_cons earlier later below] at read
  have found : some (Char.ofNat value) ∈ text.map some := by
    rw [← read]
    simp
  simpa using found

end PipeCast.Text.Utf8
