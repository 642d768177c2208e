import PipeCast.Files.Change
import PipeCast.Proofs.Files.Resolution

/-!
# Room for a new entry

A new entry needs a directory that its path's parent leads to, and a name that nothing there
has. Where there is no room, either something is there already, which need not be what the path
leads to, or the path leads to nothing for the reason for which nothing could be made.
-/

set_option autoImplicit false

namespace PipeCast.Files

/-- A path ends in a name that may be given to a new entry of a directory. The names of the
directory itself and of its parent are taken in every directory. -/
structure Room (files : Files) (path : List UInt8) (directory : Location) (name : Name) :
    Prop where
  leads : ∃ before, Path.Ends path before name ∧
    files.LeadsTo (Path.directoryOf before) directory
  inside : files.isDirectory directory = true
  short : path.length < pathLimit
  named : IsName name
  vacant : files.node? (name :: directory) = none

section

variable {files : Files} {path : List UInt8} {directory : Location} {name : Name} {node : Node}

theorem place?_eq {parsed : Path} {parents : List Name}
    (components : parsed.components = parents ++ [name]) :
    files.place? parsed =
      match files.arrive linkLimit ⟨startOf parsed files.workingDirectory, parents⟩ with
      | .error error => .error error
      | .ok directory =>
          if files.isDirectory directory then .ok (some (directory, name))
          else .error .notDirectory := by
  rw [place?, components, List.getLast?_concat, List.dropLast_concat, arrive]
  simp only [bind, Except.bind]
  cases files.follow linkLimit (startOf parsed files.workingDirectory) parents with
  | error error => rfl
  | ok reach => cases reach <;> rfl

theorem create_eq {parents : List Name} (checked : checkLength path = .ok ())
    (components : (Path.ofBytes path).components = parents ++ [name]) (node : Node)
    (plain : node ≠ .directory) :
    files.create path node =
      match files.arrive linkLimit
        ⟨startOf (Path.ofBytes path) files.workingDirectory, parents⟩ with
      | .error error => .error error
      | .ok directory =>
          if files.isDirectory directory then
            if name = here ∨ name = parent then .error .alreadyThere
            else if nameLimit < name.length then .error .nameTooLong
            else if (files.node? (name :: directory)).isSome then .error .alreadyThere
            else if (Path.ofBytes path).asksDirectory then .error .absent
            else .ok (files.put (name :: directory) node)
          else .error .notDirectory := by
  simp only [create, checked, properPlace, place?_eq components, bind, Except.bind]
  cases files.arrive linkLimit
      ⟨startOf (Path.ofBytes path) files.workingDirectory, parents⟩ with
  | error error => rfl
  | ok directory =>
      simp only
      cases files.isDirectory directory with
      | false => rfl
      | true =>
          by_cases taken : name = here ∨ name = parent
          · simp [taken]
          · by_cases long : nameLimit < name.length
            · simp [taken, long]
            · simp [taken, long, plain]

theorem start_eq {parents : List Name}
    (components : (Path.ofBytes path).components = parents ++ [name]) :
    files.start path =
      Position.append ⟨startOf (Path.ofBytes path) files.workingDirectory, parents⟩
        (name :: if (Path.ofBytes path).asksDirectory then [here] else []) := by
  rw [start, Position.append, Path.steps, components, List.append_assoc, List.singleton_append]

theorem leadsTo_directoryOf_iff {before : List UInt8}
    (parted : before = [] ∨ before.getLast? = some slash) (short : before.length < pathLimit) :
    files.LeadsTo (Path.directoryOf before) directory ↔
      files.arrive linkLimit ⟨startOf (Path.ofBytes before) files.workingDirectory,
          (Path.ofBytes before).components⟩ = .ok directory ∧
        files.isDirectory directory = true := by
  have checked : checkLength (Path.directoryOf before) = .ok () := by
    rw [checkLength_eq_ok_iff, Path.directoryOf]
    split
    · decide
    · exact ⟨by assumption, short⟩
  obtain ⟨root, inward | ⟨fromRoot, none, steps⟩⟩ := Path.directoryOf_cases parted
  · have begins : files.start (Path.directoryOf before) = Position.append
        ⟨startOf (Path.ofBytes before) files.workingDirectory,
          (Path.ofBytes before).components⟩ [here] := by
      rw [start, inward, startOf, root]
      rfl
    rw [leadsTo_iff, begins, arrive_append_here_iff]
    exact and_iff_right checked
  · have begins : files.start (Path.directoryOf before) = ⟨[], []⟩ := by
      rw [start, steps, startOf, root, fromRoot]
      rfl
    rw [leadsTo_iff, begins, startOf, fromRoot, none, if_pos rfl, arrive_nil]
    simp only [checked, true_and, Except.ok.injEq, iff_self_and]
    rintro rfl
    rfl

theorem Room.checked (room : files.Room path directory name) : checkLength path = .ok () := by
  obtain ⟨before, ends, _⟩ := room.leads
  refine checkLength_eq_ok_iff.mpr ⟨?_, room.short⟩
  rw [ends.split]
  exact List.append_ne_nil_of_right_ne_nil before ends.nonempty

theorem Room.arrive (room : files.Room path directory name) :
    ∃ before, Path.Ends path before name ∧
      files.arrive linkLimit ⟨startOf (Path.ofBytes path) files.workingDirectory,
        (Path.ofBytes before).components⟩ = .ok directory := by
  obtain ⟨before, ends, leads⟩ := room.leads
  have shorter := ends.length_before_le.trans_lt room.short
  have arrived := ((leadsTo_directoryOf_iff ends.parted shorter).mp leads).1
  refine ⟨before, ends, ?_⟩
  rw [ends.ofBytes_eq]
  exact arrived

/-- Where there is room an entry is made. -/
theorem Room.create (room : files.Room path directory name) (node : Node)
    (plain : node ≠ .directory) :
    files.create path node = .ok (files.put (name :: directory) node) := by
  obtain ⟨before, ends, arrived⟩ := room.arrive
  rw [create_eq room.checked ends.components node plain, arrived, ends.ofBytes_eq]
  simp [room.inside, room.named.notHere, room.named.notParent,
    Nat.not_lt.mpr room.named.within, room.vacant]

/-- The walk over the whole path comes to where only the name is left. -/
theorem Room.way (room : files.Room path directory name) :
    ∃ links ≤ linkLimit, Way files (files.start path) links ⟨directory, [name]⟩ := by
  obtain ⟨before, ends, arrived⟩ := room.arrive
  obtain ⟨links, within, way⟩ := arrive_eq_ok_iff.mp arrived
  have open_ : (Path.ofBytes path).asksDirectory = false := by rw [ends.ofBytes_eq]
  refine ⟨links, within, ?_⟩
  rw [start_eq ends.components, open_]
  exact way.append [name]

theorem Room.fails (room : files.Room path directory name) : files.Fails path .absent := by
  obtain ⟨nonempty, short⟩ := checkLength_eq_ok_iff.mp room.checked
  obtain ⟨links, within, way⟩ := room.way
  exact .stuck nonempty short (Nat.sub_add_cancel within) way
    (.absent room.inside room.named room.vacant)

theorem create_of_unchecked {error : IoError} (unchecked : checkLength path = .error error)
    (node : Node) : files.create path node = .error error := by
  rw [create, unchecked]
  rfl

theorem create_of_components_eq_nil (checked : checkLength path = .ok ())
    (none : (Path.ofBytes path).components = []) (node : Node) :
    files.create path node = .error .alreadyThere := by
  simp only [create, checked, properPlace, place?, none, bind, Except.bind]
  rfl

theorem arrive_start_of_stuck {parents : List Name} {error : IoError}
    (components : (Path.ofBytes path).components = parents ++ [name])
    (arrived : files.arrive linkLimit
      ⟨startOf (Path.ofBytes path) files.workingDirectory, parents⟩ = .ok directory)
    (stuck : ∀ left rest, Stuck files left ⟨directory, name :: rest⟩ error) :
    files.arrive linkLimit (files.start path) = .error error := by
  obtain ⟨rest, _, onward⟩ := arrive_append_of_ok arrived
  rw [start_eq components, onward, (stuck rest _).arrive]

theorem Room.of_vacant {parents : List Name} (checked : checkLength path = .ok ())
    (components : (Path.ofBytes path).components = parents ++ [name])
    (open_ : (Path.ofBytes path).asksDirectory = false)
    (arrived : files.arrive linkLimit
      ⟨startOf (Path.ofBytes path) files.workingDirectory, parents⟩ = .ok directory)
    (inside : files.isDirectory directory = true) (named : IsName name)
    (vacant : files.node? (name :: directory) = none) : files.Room path directory name := by
  obtain ⟨before, last, ends⟩ := Path.exists_ends (by simp [components]) open_
  obtain ⟨rfl, same⟩ := List.append_inj' (components.symm.trans ends.components) rfl
  cases same
  have short := (checkLength_eq_ok_iff.mp checked).2
  have shorter : before.length < pathLimit := ends.length_before_le.trans_lt short
  have fromRoot : (Path.ofBytes path).fromRoot = (Path.ofBytes before).fromRoot := by
    rw [ends.ofBytes_eq]
  refine ⟨⟨before, ends, ?_⟩, inside, short, named, vacant⟩
  rw [startOf, fromRoot] at arrived
  exact (leadsTo_directoryOf_iff ends.parted shorter).mpr ⟨arrived, inside⟩

/-- Where there is no room something is there, or what keeps an entry from being made is what
keeps the path from leading to anything. -/
theorem create_cases (files : Files) (path : List UInt8) (node : Node)
    (plain : node ≠ .directory) :
    (∃ directory name, files.Room path directory name) ∨
      files.create path node = .error .alreadyThere ∨
      ∃ error, files.create path node = .error error ∧ error.kind ≠ .alreadyExists ∧
        files.Fails path error := by
  by_cases empty : path = []
  · exact .inr (.inr ⟨_, create_of_unchecked (by rw [empty]; rfl) node, by decide, .empty empty⟩)
  by_cases long : pathLimit ≤ path.length
  · exact .inr (.inr ⟨_, create_of_unchecked (checkLength_of_long long) node, by decide,
      .long long⟩)
  have checked := checkLength_eq_ok_iff.mpr ⟨empty, Nat.lt_of_not_le long⟩
  by_cases none : (Path.ofBytes path).components = []
  · exact .inr (.inl (create_of_components_eq_nil checked none node))
  obtain ⟨parents, name, components⟩ := List.eq_nil_or_concat _ |>.resolve_left none
  rw [List.concat_eq_append] at components
  rw [create_eq checked components node plain]
  cases arrived : files.arrive linkLimit
      ⟨startOf (Path.ofBytes path) files.workingDirectory, parents⟩ with
  | error error =>
      obtain ⟨_, _, _, _, _, stuck⟩ := arrive_eq_error_iff.mp arrived
      refine .inr (.inr ⟨error, rfl, stuck.kind_ne, fails_of_arrive checked ?_⟩)
      rw [start_eq components]
      exact arrive_append_of_error arrived _
  | ok directory =>
      -- Whatever the directory does not let in stops the walk over the whole path, too.
      have stops : ∀ {error}, (∀ left rest, Stuck files left ⟨directory, name :: rest⟩ error) →
          error.kind ≠ .alreadyExists ∧ files.Fails path error := fun stuck =>
        ⟨(stuck 0 []).kind_ne,
          fails_of_arrive checked (arrive_start_of_stuck components arrived stuck)⟩
      cases inside : files.isDirectory directory with
      | false =>
          exact .inr (.inr ⟨.notDirectory, by simp [inside], stops fun _ _ => .outside inside⟩)
      | true =>
          by_cases taken : name = here ∨ name = parent
          · exact .inr (.inl (by simp [inside, taken]))
          obtain ⟨notHere, notParent⟩ := not_or.mp taken
          by_cases long : nameLimit < name.length
          · exact .inr (.inr ⟨.nameTooLong, by simp [inside, taken, long],
              stops fun _ _ => .tooLong inside notHere notParent long⟩)
          have named : IsName name := ⟨notHere, notParent, Nat.le_of_not_lt long⟩
          cases vacant : files.node? (name :: directory) with
          | some standing => exact .inr (.inl (by simp [inside, taken, long, vacant]))
          | none =>
              cases open_ : (Path.ofBytes path).asksDirectory with
              | true =>
                  exact .inr (.inr ⟨.absent, by simp [inside, taken, long, vacant],
                    stops fun _ _ => .absent inside named vacant⟩)
              | false =>
                  exact .inl ⟨directory, name,
                    .of_vacant checked components open_ arrived inside named vacant⟩

/-- What a path leads to is in the way, or a link to it is. -/
theorem Shows.create {standing : Node} (shows_ : files.Shows path standing) (node : Node)
    (plain : node ≠ .directory) : files.create path node = .error .alreadyThere := by
  have shown := shows_.look
  obtain ⟨directory, name, room⟩ | there | ⟨error, _, _, fails⟩ :=
    create_cases files path node plain
  · rw [room.fails.look] at shown
    cases shown
  · exact there
  · rw [fails.look] at shown
    cases shown

/-- Without room, what keeps a path from leading to anything keeps an entry from being made,
unless a link is in the way. -/
theorem Fails.create {error : IoError} (fails : files.Fails path error)
    (full : ∀ directory name, ¬ files.Room path directory name) (node : Node)
    (plain : node ≠ .directory) :
    files.create path node = .error .alreadyThere ∨
      files.create path node = .error error ∧ error.kind ≠ .alreadyExists := by
  obtain ⟨directory, name, room⟩ | there | ⟨other, failed, kind, also⟩ :=
    create_cases files path node plain
  · exact absurd room (full directory name)
  · exact .inl there
  · have same := fails.look.symm.trans also.look
    cases same
    exact .inr ⟨failed, kind⟩

end

end PipeCast.Files
