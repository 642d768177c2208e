import PipeCast.Proofs.Text.Utf8.Decoding
import PipeCast.Startup.Environment

/-!
# Environments without a variable

An entry answers to one name only, if names hold no equals sign. So when a variable is taken
away, with every entry that answers to it, all other variables keep their values.
-/

set_option autoImplicit false

namespace PipeCast.Environment

open Text

/-- An environment without a variable. -/
def unset (environment : Environment) (name : String) : Environment :=
  environment.filter fun entry => !answersTo name entry

/-- A name without an equals sign goes on to the first one of the entry. -/
theorem eq_of_same_opening {name other : String} (plain : equalsSign ∉ Utf8.bytesOf other)
    (starts : opening name <+: opening other) : name = other := by
  obtain ⟨rest, same⟩ := starts
  rcases List.eq_nil_or_concat rest with rfl | ⟨front, last, rfl⟩
  · rw [List.append_nil, opening, opening, List.append_left_inj] at same
    apply String.toList_injective
    have decoded := congrArg Utf8.decodeLossy same
    rwa [Utf8.bytesOf, Utf8.bytesOf, Utf8.decodeLossy_encode, Utf8.decodeLossy_encode] at decoded
  · rw [List.concat_eq_append, ← List.append_assoc, opening, opening] at same
    have within := (List.append_inj' same rfl).1
    rw [← within] at plain
    exact absurd (by simp) plain

theorem name_eq_of_answersTo {name other : String} {entry : List UInt8}
    (plain : equalsSign ∉ Utf8.bytesOf name) (plain' : equalsSign ∉ Utf8.bytesOf other)
    (answers : answersTo name entry = true) (answers' : answersTo other entry = true) :
    name = other := by
  have starts := List.isPrefixOf_iff_prefix.mp answers
  have starts' := List.isPrefixOf_iff_prefix.mp answers'
  rcases List.prefix_or_prefix_of_prefix starts starts' with shorter | longer
  · exact eq_of_same_opening plain' shorter
  · exact (eq_of_same_opening plain longer).symm

theorem value?_unset_self (environment : Environment) (name : String) :
    (environment.unset name).value? name = none := by
  have gone : (environment.unset name).find? (answersTo name) = none := by
    apply List.find?_eq_none.mpr
    intro entry member answers
    have other := (List.mem_filter.mp member).2
    rw [answers] at other
    cases other
  rw [value?, gone]
  split <;> rfl

theorem value?_unset_of_ne {environment : Environment} {name other : String}
    (plain : equalsSign ∉ Utf8.bytesOf name) (plain' : equalsSign ∉ Utf8.bytesOf other)
    (apart : name ≠ other) :
    (environment.unset name).value? other = environment.value? other := by
  have kept : (environment.unset name).find? (answersTo other) =
      environment.find? (answersTo other) := by
    rw [unset, List.find?_filter]
    congr 1
    funext entry
    cases answers : answersTo other entry with
    | false => simp
    | true =>
        cases answers' : answersTo name entry with
        | false => simp
        | true => exact absurd (name_eq_of_answersTo plain plain' answers' answers) apart
  rw [value?, value?, kept]

end PipeCast.Environment
