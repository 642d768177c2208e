import Mathlib.Data.List.DropRight
import PipeCast.Text.Blank

/-!
# Removing blanks

Only blanks are removed, and all of them that stand at the end. A text that is cut in
two and has both parts trimmed is as if it had been trimmed whole, unless blanks before
the cut are followed by something else after it. Trimming at both ends undoes any padding
with blanks.
-/

set_option autoImplicit false

namespace PipeCast.Text

theorem trimEnd_eq_nil_iff {text : List Char} :
    trimEnd text = [] ↔ ∀ character ∈ text, isBlank character = true :=
  List.rdropWhile_eq_nil_iff

/-- What is removed is blank, and what is kept does not end with a blank. -/
theorem exists_trimEnd_append (text : List Char) :
    ∃ blanks : List Char, text = trimEnd text ++ blanks ∧
      (∀ character ∈ blanks, isBlank character = true) ∧
      ∀ last, (trimEnd text).getLast? = some last → isBlank last = false := by
  refine ⟨(text.reverse.takeWhile isBlank).reverse, ?_, ?_, ?_⟩
  · rw [trimEnd, ← List.reverse_append, List.takeWhile_append_dropWhile, List.reverse_reverse]
  · intro character member
    exact List.all_eq_true.mp List.all_takeWhile character (List.mem_reverse.mp member)
  · intro last ends
    rw [trimEnd, List.getLast?_reverse] at ends
    have kept := List.head?_dropWhile_not isBlank text.reverse
    rw [ends] at kept
    simpa using kept

theorem trimEnd_append (first second : List Char) :
    trimEnd (first ++ second) =
      if trimEnd second = [] then trimEnd first else first ++ trimEnd second := by
  simp only [trimEnd, List.reverse_append, List.dropWhile_append, List.isEmpty_iff,
    List.reverse_eq_nil_iff]
  split
  · rfl
  · rw [List.reverse_append, List.reverse_reverse]

theorem trimEnd_append_blank (text : List Char) {blank : Char} (isBlank : isBlank blank = true) :
    trimEnd (text ++ [blank]) = trimEnd text :=
  List.rdropWhile_concat_pos _ _ _ isBlank

theorem length_trimEnd_le (text : List Char) : (trimEnd text).length ≤ text.length :=
  (List.rdropWhile_prefix _ text).length_le

theorem length_trimEnd_append_le (first second : List Char) :
    (trimEnd first).length + (trimEnd second).length ≤ (trimEnd (first ++ second)).length := by
  rw [trimEnd_append]
  split
  · rename_i blank
    rw [blank]
    exact Nat.le_refl _
  · rw [List.length_append]
    exact Nat.add_le_add_right (length_trimEnd_le first) _

/-- Trimming both parts of a text is trimming the text, if the first part ends with no
blank or the second is blank altogether. -/
theorem trimEnd_append_trimEnd_iff {first second : List Char} :
    trimEnd first ++ trimEnd second = trimEnd (first ++ second) ↔
      trimEnd first = first ∨ trimEnd second = [] := by
  rw [trimEnd_append]
  split
  · rename_i blank
    simp [blank]
  · rename_i solid
    rw [List.append_left_inj]
    simp [solid]

/-- Parts that together keep as many characters as the whole are cut as they should be. -/
theorem solid_or_blank_of_length_le {first second : List Char}
    (kept : (trimEnd (first ++ second)).length ≤
      (trimEnd first).length + (trimEnd second).length) :
    trimEnd first = first ∨ trimEnd second = [] := by
  rw [trimEnd_append] at kept
  split at kept
  · rename_i blank
    exact .inr blank
  · left
    rw [List.length_append] at kept
    exact (List.rdropWhile_prefix _ first).eq_of_length_le (Nat.le_of_add_le_add_right kept)

theorem trimEnd_eq_self_append {first second : List Char} (solid : trimEnd second = second)
    (nonempty : second ≠ []) : trimEnd (first ++ second) = first ++ second := by
  have kept : trimEnd second ≠ [] := by
    rw [solid]
    exact nonempty
  rw [trimEnd_append, if_neg kept, solid]

theorem trimEnd_eq_self_of_append {first second : List Char}
    (solid : trimEnd (first ++ second) = first ++ second) : trimEnd second = second := by
  rw [trimEnd_append] at solid
  split at solid
  · have shorter := length_trimEnd_le first
    rw [solid, List.length_append] at shorter
    have empty : second = [] := List.length_eq_zero_iff.mp (by omega)
    rw [empty]
    rfl
  · exact List.append_cancel_left solid

theorem trimEnd_replicate (count : Nat) {character : Char} (solid : isBlank character = false) :
    trimEnd (List.replicate count character) = List.replicate count character := by
  refine List.rdropWhile_eq_self_iff.mpr fun nonempty => ?_
  rw [List.getLast_replicate, solid]
  exact Bool.false_ne_true

/-! ## Characters that are not blank -/

/-- How many characters of a text are not blank. -/
def solids (text : List Char) : Nat := text.countP fun character => !isBlank character

@[simp] theorem solids_append (first second : List Char) :
    solids (first ++ second) = solids first + solids second := List.countP_append

theorem solids_cons (character : Char) (rest : List Char) :
    solids (character :: rest) = solids [character] + solids rest :=
  solids_append [character] rest

theorem solids_singleton_le (character : Char) : solids [character] ≤ 1 :=
  List.countP_le_length

@[simp] theorem solids_trimEnd (text : List Char) : solids (trimEnd text) = solids text := by
  obtain ⟨blanks, split, areBlank, _⟩ := exists_trimEnd_append text
  have none : solids blanks = 0 := by
    refine List.countP_eq_zero.mpr fun character member => ?_
    simp [areBlank character member]
  rw [congrArg solids split, solids_append, none, Nat.add_zero]

/-! ## Blanks at both ends -/

/-- A text that is a core with nothing but blanks before and after it. -/
inductive Padded (core : List Char) : List Char → Prop where
  | intro (before after : List Char) (opening : ∀ character ∈ before, isBlank character = true)
      (ending : ∀ character ∈ after, isBlank character = true) :
      Padded core (before ++ core ++ after)

@[refl] theorem Padded.refl (core : List Char) : Padded core core := by
  have bare : Padded core ([] ++ core ++ []) := .intro [] [] nofun nofun
  rwa [List.nil_append, List.append_nil] at bare

/-- A text that neither begins nor ends with a blank. -/
structure Solid (text : List Char) : Prop where
  first : ∀ character, text.head? = some character → isBlank character = false
  last : ∀ character, text.getLast? = some character → isBlank character = false

theorem Solid.of_not_blank {text : List Char}
    (unblank : ∀ character ∈ text, isBlank character = false) : Solid text :=
  ⟨fun character begins => unblank character (List.mem_of_head? begins),
    fun character ends => unblank character (List.mem_of_getLast? ends)⟩

theorem Solid.trimEnd_append {core after : List Char} (solid : Solid core)
    (ending : ∀ character ∈ after, isBlank character = true) :
    trimEnd (core ++ after) = core := by
  rw [PipeCast.Text.trimEnd_append, if_pos (trimEnd_eq_nil_iff.mpr ending)]
  apply List.rdropWhile_eq_self_iff.mpr
  intro nonempty
  rw [solid.last _ (List.getLast?_eq_some_getLast nonempty)]
  exact Bool.false_ne_true

theorem Solid.trim_padded {core text : List Char} (solid : Solid core)
    (padded : Padded core text) : trim text = core := by
  obtain ⟨before, after, opening, ending⟩ := padded
  have start : trimStart (before ++ core ++ after) = trimStart (core ++ after) := by
    rw [List.append_assoc]
    exact List.dropWhile_append_of_pos opening
  rw [trim, start]
  cases core with
  | nil =>
      have none : trimStart ([] ++ after) = [] := List.dropWhile_eq_nil_iff.mpr ending
      rw [none]
      rfl
  | cons first rest =>
      have begins : isBlank first = false := solid.first first rfl
      have whole : trimStart (first :: rest ++ after) = first :: rest ++ after :=
        List.dropWhile_cons_of_neg (by simp [begins])
      rw [whole]
      exact solid.trimEnd_append ending

theorem padded_trim (text : List Char) : Padded (trim text) text := by
  obtain ⟨after, split, ending, _⟩ := exists_trimEnd_append (trimStart text)
  have whole : text.takeWhile isBlank ++ trim text ++ after = text := by
    rw [List.append_assoc, trim, ← split]
    exact List.takeWhile_append_dropWhile
  have padded : Padded (trim text) (text.takeWhile isBlank ++ trim text ++ after) :=
    .intro _ _ (fun character member => List.all_eq_true.mp List.all_takeWhile character member)
      ending
  rwa [whole] at padded

theorem solid_trim (text : List Char) : Solid (trim text) := by
  obtain ⟨after, split, _, last⟩ := exists_trimEnd_append (trimStart text)
  refine ⟨fun character begins => ?_, last⟩
  have first : (trimStart text).head? = some character := by
    rw [split, List.head?_append]
    change (trim text).head?.or after.head? = some character
    rw [begins]
    rfl
  have kept := List.head?_dropWhile_not isBlank text
  rw [trimStart] at first
  rw [first] at kept
  exact kept

theorem Padded.trans {core middle text : List Char} (inner : Padded core middle)
    (outer : Padded middle text) : Padded core text := by
  obtain ⟨near, far, opening, ending⟩ := inner
  obtain ⟨before, after, opening', ending'⟩ := outer
  have regrouped : before ++ (near ++ core ++ far) ++ after =
      (before ++ near) ++ core ++ (far ++ after) := by simp only [List.append_assoc]
  rw [regrouped]
  apply Padded.intro
  · intro character member
    rcases List.mem_append.mp member with first | second
    · exact opening' character first
    · exact opening character second
  · intro character member
    rcases List.mem_append.mp member with first | second
    · exact ending character first
    · exact ending' character second

/-- Trimming does not see how a text is padded. -/
theorem Padded.trim_eq {core text : List Char} (padded : Padded core text) :
    trim text = trim core :=
  (solid_trim core).trim_padded ((padded_trim core).trans padded)

end PipeCast.Text
