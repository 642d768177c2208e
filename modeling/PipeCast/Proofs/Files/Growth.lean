import PipeCast.Proofs.Files.Creation

/-!
# Trees that grow

In a tree that keeps all its entries every way stays a way, so a path leads to where it led
before. A new entry at a vacant place is the only difference it makes, and its own path leads
to it, since no link stands at the end.
-/

set_option autoImplicit false

namespace PipeCast.Files

/-- A later tree has whatever a tree has, where it was, and is seen from the same directory. -/
structure Keeps (files later : Files) : Prop where
  sameDirectory : later.workingDirectory = files.workingDirectory
  stands : ∀ location node, files.node? location = some node → later.node? location = some node

section

variable {files later : Files}

/-- The mask says what new entries get, and nothing about those that are there. -/
theorem Keeps.masked (files : Files) (mask : Mode) : Keeps files { files with mask := mask } := by
  refine ⟨rfl, fun location node stands => ?_⟩
  cases location <;> exact stands

theorem Keeps.isDirectory (keeps : Keeps files later) {location : Location}
    (inside : files.isDirectory location = true) : later.isDirectory location = true :=
  decide_eq_true (keeps.stands location _ (of_decide_eq_true inside))

theorem Step.of_keeps {position next : Position} {links : Nat} (keeps : Keeps files later)
    (step : Step files position links next) : Step later position links next := by
  cases step with
  | stay inside => exact .stay (keeps.isDirectory inside)
  | ascend inside => exact .ascend (keeps.isDirectory inside)
  | descend inside named stands unlinked =>
      exact .descend (keeps.isDirectory inside) named (keeps.stands _ _ stands) unlinked
  | link inside named stands nonempty =>
      exact .link (keeps.isDirectory inside) named (keeps.stands _ _ stands) nonempty

theorem Way.of_keeps {position final : Position} {links : Nat} (keeps : Keeps files later)
    (way : Way files position links final) : Way later position links final := by
  induction way with
  | refl => exact .refl
  | step first _ ih => exact .step (first.of_keeps keeps) ih

theorem LeadsTo.of_keeps {path : List UInt8} {location : Location} (keeps : Keeps files later)
    (leads : files.LeadsTo path location) : later.LeadsTo path location := by
  obtain ⟨nonempty, short, links, within, way⟩ := leads
  refine ⟨nonempty, short, links, within, ?_⟩
  rw [start, keeps.sameDirectory]
  exact way.of_keeps keeps

theorem Shows.of_keeps {path : List UInt8} {node : Node} (keeps : Keeps files later)
    (shows_ : files.Shows path node) : later.Shows path node := by
  obtain ⟨location, leads, stands⟩ := shows_
  exact ⟨location, leads.of_keeps keeps, keeps.stands location node stands⟩

/-! ## One entry more -/

variable {directory : Location} {name : Name}

theorem put_of_vacant (vacant : files.node? (name :: directory) = none) (node : Node) :
    files.put (name :: directory) node =
      { files with nodes := (name :: directory, node) :: files.nodes } := by
  have others : ∀ entry ∈ files.nodes, entry.1 ≠ name :: directory := by
    intro entry member same
    have differs := List.lookup_eq_none_iff.mp vacant entry member
    simp [same] at differs
  have kept : files.nodes.filter (fun entry => entry.1 ≠ name :: directory) = files.nodes :=
    List.filter_eq_self.mpr fun entry member => decide_eq_true (others entry member)
  rw [put, kept]

@[simp] theorem node?_put_self (files : Files) (directory : Location) (name : Name) (node : Node) :
    (files.put (name :: directory) node).node? (name :: directory) = some node := by
  simp [node?, put]

theorem node?_put_of_ne (vacant : files.node? (name :: directory) = none) (node : Node)
    {location : Location} (elsewhere : location ≠ name :: directory) :
    (files.put (name :: directory) node).node? location = files.node? location := by
  rw [put_of_vacant vacant]
  cases location with
  | nil => rfl
  | cons first rest =>
      simp only [node?, List.lookup_cons]
      rw [beq_eq_false_iff_ne.mpr elsewhere]

theorem keeps_put (vacant : files.node? (name :: directory) = none) (node : Node) :
    Keeps files (files.put (name :: directory) node) := by
  refine ⟨rfl, fun location other stands => ?_⟩
  have elsewhere : location ≠ name :: directory := by
    rintro rfl
    rw [vacant] at stands
    cases stands
  rw [node?_put_of_ne vacant node elsewhere, stands]

/-- The path that an entry is made under leads to it afterwards. -/
theorem Room.leadsTo_put {path : List UInt8} {node : Node}
    (room : files.Room path directory name) (unlinked : ∀ target, node ≠ .link target) :
    (files.put (name :: directory) node).LeadsTo path (name :: directory) := by
  have keeps := keeps_put room.vacant node
  obtain ⟨nonempty, short⟩ := checkLength_eq_ok_iff.mp room.checked
  obtain ⟨links, within, way⟩ := room.way
  have last : Step (files.put (name :: directory) node) ⟨directory, [name]⟩ 0
      ⟨name :: directory, []⟩ :=
    .descend (keeps.isDirectory room.inside) room.named (node?_put_self files directory name node)
      unlinked
  have whole := (way.of_keeps keeps).trans (.step last .refl)
  rw [Nat.zero_add] at whole
  exact ⟨nonempty, short, links, within, whole⟩

end

end PipeCast.Files
