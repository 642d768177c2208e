import PipeCast.Proofs.Files.Paths
import PipeCast.Proofs.Files.Ways

/-!
# Where paths lead

A path leads to a location if there is a way to it, from the root or from the working
directory, that follows no more links than a system allows. Looking at a path shows what stands
there, or says what the way was stuck at.
-/

set_option autoImplicit false

namespace PipeCast.Files

/-- Where the walk over a path begins. -/
def start (files : Files) (path : List UInt8) : Position :=
  ⟨startOf (Path.ofBytes path) files.workingDirectory, (Path.ofBytes path).steps⟩

/-- A path leads to a location when all its links are followed. -/
structure LeadsTo (files : Files) (path : List UInt8) (location : Location) : Prop where
  nonempty : path ≠ []
  short : path.length < pathLimit
  arrives : ∃ links ≤ linkLimit, Way files (files.start path) links ⟨location, []⟩

/-- What stands where a path leads to. -/
def Shows (files : Files) (path : List UInt8) (node : Node) : Prop :=
  ∃ location, files.LeadsTo path location ∧ files.node? location = some node

/-- Why a path leads to nothing. -/
inductive Fails (files : Files) (path : List UInt8) : IoError → Prop where
  | empty (empty : path = []) : Fails files path .absent
  | long (long : pathLimit ≤ path.length) : Fails files path .nameTooLong
  | stuck {left links final error} (nonempty : path ≠ []) (short : path.length < pathLimit)
      (spent : left + links = linkLimit) (way : Way files (files.start path) links final)
      (stuck : Stuck files left final error) : Fails files path error
  | nothing {location} (leads : files.LeadsTo path location)
      (nothing : files.node? location = none) : Fails files path .absent

section

variable {files : Files} {path : List UInt8}

theorem checkLength_of_long (long : pathLimit ≤ path.length) :
    checkLength path = .error .nameTooLong := by
  have nonempty : path ≠ [] := by
    rintro rfl
    exact absurd long (by decide)
  simp [checkLength, nonempty, long]

theorem checkLength_eq_ok_iff :
    checkLength path = .ok () ↔ path ≠ [] ∧ path.length < pathLimit := by
  by_cases empty : path = []
  · simp [checkLength, empty]
  · by_cases long : pathLimit ≤ path.length
    · simp [checkLength_of_long, long, Nat.not_lt.mpr long]
    · simp [checkLength, empty, long, Nat.lt_of_not_le long]

theorem leadsTo_iff {location : Location} :
    files.LeadsTo path location ↔
      checkLength path = .ok () ∧ files.arrive linkLimit (files.start path) = .ok location := by
  rw [checkLength_eq_ok_iff, arrive_eq_ok_iff]
  exact ⟨fun leads => ⟨⟨leads.nonempty, leads.short⟩, leads.arrives⟩,
    fun ⟨⟨nonempty, short⟩, arrives⟩ => ⟨nonempty, short, arrives⟩⟩

theorem look_of_unchecked {error : IoError} (unchecked : checkLength path = .error error) :
    files.look path = .error error := by
  rw [look, reach, unchecked]
  rfl

theorem look_of_checked (checked : checkLength path = .ok ()) :
    files.look path =
      match files.arrive linkLimit (files.start path) with
      | .error error => .error error
      | .ok location =>
          match files.node? location with
          | some node => .ok node
          | none => .error .absent := by
  rw [look, reach, checked, arrive, start]
  simp only [bind, Except.bind]
  cases files.follow linkLimit (startOf (Path.ofBytes path) files.workingDirectory)
      (Path.ofBytes path).steps with
  | error error => rfl
  | ok reach => cases reach <;> rfl

theorem Shows.look {node : Node} (shows_ : files.Shows path node) : files.look path = .ok node := by
  obtain ⟨location, leads, stands⟩ := shows_
  obtain ⟨checked, arrived⟩ := leadsTo_iff.mp leads
  rw [look_of_checked checked, arrived]
  simp only [stands]

theorem Fails.look {error : IoError} (fails : files.Fails path error) :
    files.look path = .error error := by
  cases fails with
  | empty empty =>
      rw [empty]
      rfl
  | long long => exact look_of_unchecked (checkLength_of_long long)
  | stuck nonempty short spent way stuck =>
      have checked := checkLength_eq_ok_iff.mpr ⟨nonempty, short⟩
      rw [look_of_checked checked, arrive_eq_error_iff.mpr ⟨_, _, _, spent, way, stuck⟩]
  | nothing leads nothing =>
      obtain ⟨checked, arrived⟩ := leadsTo_iff.mp leads
      rw [look_of_checked checked, arrived]
      simp only [nothing]

/-- A path leads to something or to nothing. -/
theorem shows_or_fails (files : Files) (path : List UInt8) :
    (∃ node, files.Shows path node) ∨ ∃ error, files.Fails path error := by
  by_cases empty : path = []
  · exact .inr ⟨_, .empty empty⟩
  by_cases long : pathLimit ≤ path.length
  · exact .inr ⟨_, .long long⟩
  have short := Nat.lt_of_not_le long
  obtain ⟨left, links, final, spent, way, through | ⟨error, stuck⟩⟩ :=
    exists_way files linkLimit (files.start path)
  · obtain ⟨location, steps⟩ := final
    cases through
    have leads : files.LeadsTo path location := ⟨empty, short, links, by omega, way⟩
    cases stands : files.node? location with
    | none => exact .inr ⟨_, .nothing leads stands⟩
    | some node => exact .inl ⟨node, location, leads, stands⟩
  · exact .inr ⟨error, .stuck empty short spent way stuck⟩

theorem fails_of_arrive {error : IoError} (checked : checkLength path = .ok ())
    (failed : files.arrive linkLimit (files.start path) = .error error) :
    files.Fails path error := by
  obtain ⟨nonempty, short⟩ := checkLength_eq_ok_iff.mp checked
  obtain ⟨left, links, final, spent, way, stuck⟩ := arrive_eq_error_iff.mp failed
  exact .stuck nonempty short spent way stuck

/-- The system's number for every reason why a path leads to nothing. -/
theorem Fails.number?_mem {error : IoError} (fails : files.Fails path error) :
    error.number? ∈ [some 2, some 20, some 36, some 40] := by
  cases fails with
  | empty => decide
  | long => decide
  | stuck _ _ _ _ stuck => cases stuck <;> decide
  | nothing => decide

theorem look_eq_ok_iff {node : Node} : files.look path = .ok node ↔ files.Shows path node := by
  refine ⟨fun shown => ?_, Shows.look⟩
  obtain ⟨other, shows_⟩ | ⟨error, fails⟩ := shows_or_fails files path
  · rw [shows_.look] at shown
    cases shown
    exact shows_
  · rw [fails.look] at shown
    cases shown

theorem look_eq_error_iff {error : IoError} :
    files.look path = .error error ↔ files.Fails path error := by
  refine ⟨fun failed => ?_, Fails.look⟩
  obtain ⟨node, shows_⟩ | ⟨other, fails⟩ := shows_or_fails files path
  · rw [shows_.look] at failed
    cases failed
  · rw [fails.look] at failed
    cases failed
    exact fails

end

end PipeCast.Files
