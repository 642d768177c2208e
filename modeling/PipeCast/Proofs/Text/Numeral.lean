import PipeCast.Proofs.Text.Blank
import PipeCast.Text.Numeral

/-!
# The numerals that are read

A numeral is read exactly if it follows the grammar and its value is within the bound. A digit
that leads beyond the bound is refused at once, and since no later digit makes a value smaller,
nothing within the bound is refused by that.
-/

set_option autoImplicit false

namespace PipeCast.Text.Numeral

/-- At most one plus sign and then one or more ASCII digits, with the number that they denote. -/
inductive Spells : List Char → Nat → Prop where
  | plain {digits : List Char} (nonempty : digits ≠ [])
      (ascii : ∀ character ∈ digits, character.isDigit = true) :
      Spells digits (Nat.ofDigitChars 10 digits 0)
  | signed {digits : List Char} (nonempty : digits ≠ [])
      (ascii : ∀ character ∈ digits, character.isDigit = true) :
      Spells ('+' :: digits) (Nat.ofDigitChars 10 digits 0)

theorem digit?_eq (character : Char) :
    digit? character =
      if character.isDigit = true then some (character.toNat - '0'.toNat) else none := by
  have same : character.isDigit = true ↔ '0' ≤ character ∧ character ≤ '9' := by
    simp only [Char.isDigit, Bool.and_eq_true, decide_eq_true_eq, ge_iff_le, Char.le_def]
  simp only [digit?, same]

theorem le_ofDigitChars (digits : List Char) (value : Nat) :
    value ≤ Nat.ofDigitChars 10 digits value := by
  rw [Nat.ofDigitChars_eq_ofDigitChars_zero]
  have grown := Nat.le_mul_of_pos_left value (Nat.pow_pos (n := digits.length) (by decide : 0 < 10))
  omega

theorem foldlM_extend?_eq_some_iff {limit value number : Nat} (within : value ≤ limit)
    (digits : List Char) :
    digits.foldlM (extend? limit) value = some number ↔
      (∀ character ∈ digits, character.isDigit = true) ∧
        Nat.ofDigitChars 10 digits value = number ∧ number ≤ limit := by
  induction digits generalizing value with
  | nil =>
      constructor
      · rintro ⟨⟩
        exact ⟨nofun, rfl, within⟩
      · rintro ⟨_, rfl, _⟩
        rfl
  | cons character rest ih =>
      rw [List.foldlM_cons, extend?, digit?_eq, List.forall_mem_cons, Nat.ofDigitChars_cons]
      by_cases ascii : character.isDigit = true
      · rw [if_pos ascii, Nat.mul_comm 10 value, Option.bind_some]
        by_cases room : value * 10 + (character.toNat - '0'.toNat) ≤ limit
        · rw [if_pos room]
          simp only [ascii, true_and]
          exact ih room
        · rw [if_neg room]
          constructor
          · nofun
          · -- The value is beyond the limit already, and the digits left cannot bring it back.
            rintro ⟨_, rfl, small⟩
            have grown := le_ofDigitChars rest (value * 10 + (character.toNat - '0'.toNat))
            omega
      · rw [if_neg ascii]
        constructor
        · nofun
        · rintro ⟨⟨digit, _⟩, _⟩
          exact absurd digit ascii

theorem unsigned_cases (text : List Char) :
    text = '+' :: unsigned text ∨ unsigned text = text := by
  unfold unsigned
  split
  · exact .inl rfl
  · exact .inr rfl

theorem unsigned_of_isDigit {digits : List Char}
    (ascii : ∀ character ∈ digits, character.isDigit = true) : unsigned digits = digits := by
  rcases unsigned_cases digits with marked | plain
  · have plus : '+' ∈ digits := by
      rw [marked]
      exact List.mem_cons_self
    exact absurd (ascii '+' plus) (by decide)
  · exact plain

theorem read?_eq_some_of_unsigned {limit number : Nat} {text digits : List Char}
    (same : unsigned text = digits) :
    read? limit text = some number ↔
      digits ≠ [] ∧ (∀ character ∈ digits, character.isDigit = true) ∧
        Nat.ofDigitChars 10 digits 0 = number ∧ number ≤ limit := by
  rw [read?, same]
  cases digits with
  | nil => simp
  | cons first rest =>
      simp only [ne_eq, reduceCtorEq, not_false_eq_true, true_and]
      exact foldlM_extend?_eq_some_iff (Nat.zero_le limit) (first :: rest)

theorem read?_eq_some_iff {limit number : Nat} {text : List Char} :
    read? limit text = some number ↔ Spells text number ∧ number ≤ limit := by
  constructor
  · intro found
    obtain ⟨nonempty, ascii, rfl, within⟩ := (read?_eq_some_of_unsigned rfl).mp found
    refine ⟨?_, within⟩
    rcases unsigned_cases text with marked | plain
    · rw [marked]
      exact .signed nonempty ascii
    · rw [plain] at nonempty ascii ⊢
      exact .plain nonempty ascii
  · rintro ⟨spells, within⟩
    cases spells with
    | plain nonempty ascii =>
        exact (read?_eq_some_of_unsigned (unsigned_of_isDigit ascii)).mpr
          ⟨nonempty, ascii, rfl, within⟩
    | signed nonempty ascii =>
        exact (read?_eq_some_of_unsigned rfl).mpr ⟨nonempty, ascii, rfl, within⟩

/-! ## Numerals as they are written -/

theorem isBlank_eq_false_of_isDigit {character : Char} (ascii : character.isDigit = true) :
    isBlank character = false := by
  obtain ⟨least, most⟩ := Char.isDigit_iff_toNat.mp ascii
  change 48 ≤ character.toNat at least
  change character.toNat ≤ 57 at most
  simp only [isBlank, blankRanges, List.any_cons, List.any_nil, Bool.or_false,
    Bool.or_eq_false_iff, Bool.and_eq_false_iff, decide_eq_false_iff_not]
  omega

theorem Spells.solid {text : List Char} {number : Nat} (spells : Spells text number) :
    Solid text := by
  apply Solid.of_not_blank
  cases spells with
  | plain _ ascii => exact fun character member => isBlank_eq_false_of_isDigit (ascii _ member)
  | signed _ ascii =>
      intro character member
      rcases List.mem_cons.mp member with rfl | digit
      · decide
      · exact isBlank_eq_false_of_isDigit (ascii _ digit)

/-- A number in decimal, after any number of zeros and perhaps a plus sign. -/
def decimal (signed : Bool) (zeros number : Nat) : List Char :=
  (if signed then ['+'] else []) ++ (List.replicate zeros '0' ++ Nat.toDigits 10 number)

theorem spells_decimal (signed : Bool) (zeros number : Nat) :
    Spells (decimal signed zeros number) number := by
  have nonempty : List.replicate zeros '0' ++ Nat.toDigits 10 number ≠ [] := by
    intro empty
    exact Nat.toDigits_ne_nil (List.append_eq_nil_iff.mp empty).2
  have ascii : ∀ character ∈ List.replicate zeros '0' ++ Nat.toDigits 10 number,
      character.isDigit = true := by
    intro character member
    rcases List.mem_append.mp member with zero | digit
    · obtain ⟨_, rfl⟩ := List.mem_replicate.mp zero
      rfl
    · exact Nat.isDigit_of_mem_toDigits (by decide) (by decide) digit
  have value : Nat.ofDigitChars 10 (List.replicate zeros '0' ++ Nat.toDigits 10 number) 0 =
      number := by
    rw [Nat.ofDigitChars_append, Nat.ofDigitChars_replicate_zero, Nat.mul_zero,
      Nat.ofDigitChars_ten_toDigits]
  cases signed with
  | false =>
      have plain := Spells.plain nonempty ascii
      rwa [value] at plain
  | true =>
      have marked := Spells.signed nonempty ascii
      rwa [value] at marked

end PipeCast.Text.Numeral
