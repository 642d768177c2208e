import Mathlib.Data.List.DropRight
import PipeCast.Files.Path

/-!
# The last component of a path

A path that ends in a name is what stands before that name and the name. What stands before is
empty or ends with a slash, and is a path to the directory that the name belongs to.
-/

set_option autoImplicit false

namespace PipeCast.Files

namespace Path

/-- A path with a name at its end, and what stands before that name. -/
structure Ends (path before name : List UInt8) : Prop where
  split : path = before ++ name
  nonempty : name ≠ []
  single : slash ∉ name
  parted : before = [] ∨ before.getLast? = some slash

/-- The path of the directory that a name belongs to, from what stands before the name. -/
def directoryOf (before : List UInt8) : List UInt8 :=
  if before = [] then here else before

theorem components_append_slash (first second : List UInt8) :
    (ofBytes (first ++ slash :: second)).components =
      (ofBytes first).components ++ (ofBytes second).components := by
  simp only [ofBytes]
  rw [List.splitOnP_append_cons _ _ (by simp), List.filter_append]

theorem components_nil : (ofBytes []).components = [] := rfl

theorem components_name {name : List UInt8} (nonempty : name ≠ []) (single : slash ∉ name) :
    (ofBytes name).components = [name] := by
  have free : ∀ byte ∈ name, decide (byte = slash) = false :=
    fun byte member => decide_eq_false fun same => single (same ▸ member)
  simp only [ofBytes]
  rw [List.splitOnP_eq_singleton free]
  simp [nonempty]

theorem components_cons_ne_nil {byte : UInt8} (notSlash : byte ≠ slash) (rest : List UInt8) :
    (ofBytes (byte :: rest)).components ≠ [] := by
  simp only [ofBytes, List.splitOnP_cons_eq_if_modifyHead, notSlash, decide_false,
    Bool.false_eq_true, if_false]
  cases parts : rest.splitOnP (· = slash) with
  | nil => exact absurd parts (List.splitOnP_ne_nil _ _)
  | cons part parts => simp

theorem asksDirectory_eq {path : List UInt8} (components : (ofBytes path).components ≠ []) :
    (ofBytes path).asksDirectory = decide (path.getLast? = some slash) := by
  simp only [ofBytes] at components ⊢
  simp [components]

/-- A path without components goes from the root and ends there. -/
theorem ofBytes_of_components_eq_nil {path : List UInt8} (nonempty : path ≠ [])
    (none : (ofBytes path).components = []) : ofBytes path = ⟨true, [], false⟩ := by
  obtain ⟨byte, rest, rfl⟩ := List.exists_cons_of_ne_nil nonempty
  have first : byte = slash := by
    by_contra notSlash
    exact components_cons_ne_nil notSlash rest none
  subst first
  have fields : ofBytes (slash :: rest) = ⟨true, (ofBytes (slash :: rest)).components,
      !(ofBytes (slash :: rest)).components.isEmpty &&
        (slash :: rest).getLast? = some slash⟩ := by simp [ofBytes]
  rw [fields, none]
  rfl

theorem exists_ends {path : List UInt8} (components : (ofBytes path).components ≠ [])
    (open_ : (ofBytes path).asksDirectory = false) :
    ∃ before name, Ends path before name := by
  have nonempty : path ≠ [] := by
    rintro rfl
    exact components components_nil
  rw [asksDirectory_eq components, decide_eq_false_iff_not,
    List.getLast?_eq_some_getLast nonempty, Option.some.injEq] at open_
  refine ⟨path.rdropWhile (· ≠ slash), path.rtakeWhile (· ≠ slash),
    List.rdropWhile_append_rtakeWhile.symm, ?_, ?_, ?_⟩
  · intro empty
    exact List.rtakeWhile_eq_nil_iff.mp empty nonempty (decide_eq_true open_)
  · intro member
    exact absurd (List.mem_rtakeWhile_imp member) (by simp)
  · by_cases empty : path.rdropWhile (· ≠ slash) = []
    · exact .inl empty
    · right
      rw [List.getLast?_eq_some_getLast empty]
      simpa using List.rdropWhile_last_not _ path empty

section

variable {path before name : List UInt8}

theorem Ends.length_before_le (ends : Ends path before name) : before.length ≤ path.length := by
  rw [ends.split, List.length_append]
  exact Nat.le_add_right _ _

theorem Ends.components (ends : Ends path before name) :
    (ofBytes path).components = (ofBytes before).components ++ [name] := by
  obtain ⟨rfl, nonempty, single, rfl | parted⟩ := ends
  · exact components_name nonempty single
  · obtain ⟨others, rfl⟩ := List.getLast?_eq_some_iff.mp parted
    rw [List.append_assoc, List.singleton_append, components_append_slash,
      components_append_slash, components_nil, List.append_nil,
      components_name nonempty single]

theorem Ends.ofBytes_eq (ends : Ends path before name) :
    ofBytes path = ⟨(ofBytes before).fromRoot, (ofBytes before).components ++ [name], false⟩ := by
  have root : (ofBytes path).fromRoot = (ofBytes before).fromRoot := by
    by_cases empty : before = []
    · have relative : path.head? ≠ some slash := by
        rw [ends.split, empty, List.nil_append]
        exact fun first => ends.single (List.mem_of_head? first)
      rw [empty]
      exact decide_eq_false relative
    · simp only [ofBytes]
      rw [ends.split, List.head?_append_of_ne_nil _ empty]
  have open_ : (ofBytes path).asksDirectory = false := by
    have components : (ofBytes path).components ≠ [] := by simp [ends.components]
    rw [asksDirectory_eq components, ends.split,
      List.getLast?_append_of_ne_nil _ ends.nonempty]
    exact decide_eq_false fun last => ends.single (List.mem_of_getLast? last)
  rw [show ofBytes path = ⟨(ofBytes path).fromRoot, (ofBytes path).components,
    (ofBytes path).asksDirectory⟩ from rfl, root, ends.components, open_]

end

/-- To go into the directory that a name belongs to is to walk what stands before the name, and
to end in a directory. -/
theorem directoryOf_cases {before : List UInt8}
    (parted : before = [] ∨ before.getLast? = some slash) :
    (Path.ofBytes (directoryOf before)).fromRoot = (Path.ofBytes before).fromRoot ∧
      ((Path.ofBytes (directoryOf before)).steps = (Path.ofBytes before).components ++ [here] ∨
        (Path.ofBytes before).fromRoot = true ∧ (Path.ofBytes before).components = [] ∧
          (Path.ofBytes (directoryOf before)).steps = []) := by
  by_cases empty : before = []
  · subst empty
    decide
  · rw [directoryOf, if_neg empty]
    refine ⟨rfl, ?_⟩
    by_cases components : (ofBytes before).components = []
    · right
      rw [ofBytes_of_components_eq_nil empty components]
      decide
    · left
      have asks : (ofBytes before).asksDirectory = true := by
        rw [asksDirectory_eq components]
        exact decide_eq_true (parted.resolve_left empty)
      rw [steps, asks, if_pos rfl]

end Path

end PipeCast.Files
