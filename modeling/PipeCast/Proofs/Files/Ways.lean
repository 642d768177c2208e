import PipeCast.Files.Tree

/-!
# Ways through a tree

How components are resolved, in small steps. A step leaves one component behind, or puts the
components of a link's target in its place. A way is a run of steps, with the links that it
follows counted. Where no step leads on, either nothing is left to walk or one of a few errors
is met. Following with a budget of links comes to where the way ends.
-/

set_option autoImplicit false

namespace PipeCast.Files

/-- Where a walk stands, and the components it has yet to walk over. -/
structure Position where
  location : Location
  steps : List Name
  deriving DecidableEq, Repr

/-- A component that names an entry. -/
structure IsName (name : Name) : Prop where
  notHere : name ≠ here
  notParent : name ≠ parent
  within : name.length ≤ nameLimit

inductive Step (files : Files) : Position → Nat → Position → Prop where
  | stay {location rest} (inside : files.isDirectory location = true) :
      Step files ⟨location, here :: rest⟩ 0 ⟨location, rest⟩
  | ascend {location rest} (inside : files.isDirectory location = true) :
      Step files ⟨location, parent :: rest⟩ 0 ⟨location.tail, rest⟩
  | descend {location name rest node} (inside : files.isDirectory location = true)
      (named : IsName name) (stands : files.node? (name :: location) = some node)
      (unlinked : ∀ target, node ≠ .link target) :
      Step files ⟨location, name :: rest⟩ 0 ⟨name :: location, rest⟩
  | link {location name rest target} (inside : files.isDirectory location = true)
      (named : IsName name) (stands : files.node? (name :: location) = some (.link target))
      (nonempty : target ≠ []) :
      Step files ⟨location, name :: rest⟩ 1
        ⟨startOf (Path.ofBytes target) location, (Path.ofBytes target).steps ++ rest⟩

/-- A run of steps, with the number of links it follows. -/
inductive Way (files : Files) : Position → Nat → Position → Prop where
  | refl {position} : Way files position 0 position
  | step {position links next further final} (first : Step files position links next)
      (later : Way files next further final) : Way files position (further + links) final

/-- What keeps a walk from going on if no more than so many links may be followed. -/
inductive Stuck (files : Files) : Nat → Position → IoError → Prop where
  | outside {left location name rest} (outside : files.isDirectory location = false) :
      Stuck files left ⟨location, name :: rest⟩ .notDirectory
  | tooLong {left location name rest} (inside : files.isDirectory location = true)
      (notHere : name ≠ here) (notParent : name ≠ parent) (long : nameLimit < name.length) :
      Stuck files left ⟨location, name :: rest⟩ .nameTooLong
  | absent {left location name rest} (inside : files.isDirectory location = true)
      (named : IsName name) (vacant : files.node? (name :: location) = none) :
      Stuck files left ⟨location, name :: rest⟩ .absent
  | emptyLink {left location name rest} (inside : files.isDirectory location = true)
      (named : IsName name) (stands : files.node? (name :: location) = some (.link [])) :
      Stuck files (left + 1) ⟨location, name :: rest⟩ .absent
  | tooManyLinks {location name rest target} (inside : files.isDirectory location = true)
      (named : IsName name) (stands : files.node? (name :: location) = some (.link target)) :
      Stuck files 0 ⟨location, name :: rest⟩ .tooManyLinks

/-! ## More components after those of a way -/

def Position.append (position : Position) (more : List Name) : Position :=
  { position with steps := position.steps ++ more }

section

variable {files : Files} {position next final : Position} {links further left : Nat}
  {error : IoError}

theorem Step.append (step : Step files position links next) (more : List Name) :
    Step files (position.append more) links (next.append more) := by
  cases step with
  | stay inside => exact .stay inside
  | ascend inside => exact .ascend inside
  | descend inside named stands unlinked => exact .descend inside named stands unlinked
  | @link location name rest target inside named stands nonempty =>
      have step : Step files ⟨location, name :: (rest ++ more)⟩ 1 _ :=
        .link inside named stands nonempty
      rwa [← List.append_assoc] at step

theorem Way.append (way : Way files position links next) (more : List Name) :
    Way files (position.append more) links (next.append more) := by
  induction way with
  | refl => exact .refl
  | step first _ ih => exact .step (first.append more) ih

theorem Stuck.append (stuck : Stuck files left position error) (more : List Name) :
    Stuck files left (position.append more) error := by
  cases stuck with
  | outside outside => exact .outside outside
  | tooLong inside notHere notParent long => exact .tooLong inside notHere notParent long
  | absent inside named vacant => exact .absent inside named vacant
  | emptyLink inside named stands => exact .emptyLink inside named stands
  | tooManyLinks inside named stands => exact .tooManyLinks inside named stands

theorem Way.trans (way : Way files position links next) (later : Way files next further final) :
    Way files position (further + links) final := by
  induction way with
  | refl => exact later
  | step first _ ih =>
      rw [← Nat.add_assoc]
      exact .step first (ih later)

/-! ## Following a way -/

theorem walk_name {location : Location} {name : Name}
    (inside : files.isDirectory location = true) (named : IsName name) (rest : List Name) :
    files.walk location (name :: rest) =
      match files.node? (name :: location) with
      | none => if rest = [] then .reached (.vacant location name) else .failed .absent
      | some (.link target) => .link location target rest
      | some _ => files.walk (name :: location) rest := by
  rw [walk.eq_def]
  simp only [inside, named.notHere, named.notParent, Nat.not_lt.mpr named.within]
  cases files.node? (name :: location) with
  | none => cases rest <;> rfl
  | some node => cases node <;> rfl

theorem follow_congr {location other : Location} {steps others : List Name}
    (same : files.walk location steps = files.walk other others) (links : Nat) :
    files.follow links location steps = files.follow links other others := by
  rw [follow.eq_def, follow.eq_def files links other, same]

theorem Step.follow (step : Step files position links next) (left : Nat) :
    files.follow (left + links) position.location position.steps =
      files.follow left next.location next.steps := by
  cases step with
  | stay inside =>
      refine follow_congr ?_ left
      simp [walk, inside]
  | ascend inside =>
      refine follow_congr ?_ left
      simp [walk, inside, show parent ≠ here by decide]
  | @descend _ _ _ node inside named stands unlinked =>
      refine follow_congr ?_ left
      rw [walk_name inside named, stands]
      cases node with
      | link target => exact absurd rfl (unlinked target)
      | _ => rfl
  | link inside named stands nonempty =>
      rw [Files.follow, walk_name inside named, stands]
      simp [nonempty]

theorem Way.follow (way : Way files position links final) (left : Nat) :
    files.follow (left + links) position.location position.steps =
      files.follow left final.location final.steps := by
  induction way generalizing left with
  | refl => rfl
  | step first _ ih => rw [← Nat.add_assoc, first.follow, ih]

/-- Where a walk from a position ends. A last name without an entry counts as an error. -/
def arrive (files : Files) (links : Nat) (position : Position) : Except IoError Location := do
  match ← files.follow links position.location position.steps with
  | .vacant _ _ => .error .absent
  | .found location => .ok location

theorem Way.arrive (way : Way files position links final) (left : Nat) :
    files.arrive (left + links) position = files.arrive left final := by
  rw [Files.arrive, way.follow, Files.arrive]

theorem arrive_nil (files : Files) (links : Nat) (location : Location) :
    files.arrive links ⟨location, []⟩ = .ok location := by
  rw [arrive, follow.eq_def]
  rfl

theorem Stuck.arrive (stuck : Stuck files left position error) :
    files.arrive left position = .error error := by
  rw [Files.arrive, follow.eq_def]
  cases stuck with
  | outside outside => simp [walk, outside, bind, Except.bind]
  | tooLong inside notHere notParent long =>
      simp [walk, inside, notHere, notParent, long, bind, Except.bind]
  | @absent _ _ _ rest inside named vacant =>
      rw [walk_name inside named, vacant]
      cases rest <;> rfl
  | emptyLink inside named stands =>
      rw [walk_name inside named, stands]
      rfl
  | tooManyLinks inside named stands =>
      rw [walk_name inside named, stands]
      rfl

/-- Without following a link a walk gets through, gets stuck, or comes to a link. -/
theorem exists_way_to_link (files : Files) (location : Location) (steps : List Name) :
    ∃ final, Way files ⟨location, steps⟩ 0 final ∧
      (final.steps = [] ∨ (∀ left, ∃ error, Stuck files left final error) ∨
        ∃ location name rest target, final = ⟨location, name :: rest⟩ ∧
          files.isDirectory location = true ∧ IsName name ∧
          files.node? (name :: location) = some (.link target)) := by
  induction steps generalizing location with
  | nil => exact ⟨_, .refl, .inl rfl⟩
  | cons name rest ih =>
      cases inside : files.isDirectory location with
      | false => exact ⟨_, .refl, .inr (.inl fun _ => ⟨_, .outside inside⟩)⟩
      | true =>
          by_cases notHere : name = here
          · subst notHere
            obtain ⟨final, way, ends⟩ := ih location
            exact ⟨final, .step (.stay inside) way, ends⟩
          by_cases notParent : name = parent
          · subst notParent
            obtain ⟨final, way, ends⟩ := ih location.tail
            exact ⟨final, .step (.ascend inside) way, ends⟩
          by_cases within : name.length ≤ nameLimit
          case neg =>
            have long := Nat.lt_of_not_le within
            exact ⟨_, .refl, .inr (.inl fun _ => ⟨_, .tooLong inside notHere notParent long⟩)⟩
          have named : IsName name := ⟨notHere, notParent, within⟩
          cases stands : files.node? (name :: location) with
          | none => exact ⟨_, .refl, .inr (.inl fun _ => ⟨_, .absent inside named stands⟩)⟩
          | some node =>
              by_cases linked : ∃ target, node = .link target
              · obtain ⟨target, rfl⟩ := linked
                exact ⟨_, .refl, .inr (.inr ⟨_, _, _, _, rfl, inside, named, stands⟩)⟩
              · obtain ⟨final, way, ends⟩ := ih (name :: location)
                have unlinked : ∀ target, node ≠ .link target :=
                  fun target same => linked ⟨target, same⟩
                exact ⟨final, .step (.descend inside named stands unlinked) way, ends⟩

/-- With any budget a walk either gets through or gets stuck. -/
theorem exists_way (files : Files) (budget : Nat) (position : Position) :
    ∃ left links final, left + links = budget ∧ Way files position links final ∧
      (final.steps = [] ∨ ∃ error, Stuck files left final error) := by
  -- A link may bring any number of components, so what decreases is the budget.
  induction budget generalizing position with
  | zero =>
      obtain ⟨final, way, through | stuck | ⟨_, _, _, _, rfl, inside, named, stands⟩⟩ :=
        exists_way_to_link files position.location position.steps
      · exact ⟨0, 0, final, rfl, way, .inl through⟩
      · exact ⟨0, 0, final, rfl, way, .inr (stuck 0)⟩
      · exact ⟨0, 0, _, rfl, way, .inr ⟨_, .tooManyLinks inside named stands⟩⟩
  | succ budget ih =>
      obtain ⟨final, way, through | stuck | ⟨_, _, rest, target, rfl, inside, named, stands⟩⟩ :=
        exists_way_to_link files position.location position.steps
      · exact ⟨budget + 1, 0, final, rfl, way, .inl through⟩
      · exact ⟨budget + 1, 0, final, rfl, way, .inr (stuck _)⟩
      · by_cases empty : target = []
        · subst empty
          exact ⟨budget + 1, 0, _, rfl, way, .inr ⟨_, .emptyLink inside named stands⟩⟩
        · have link : Step files ⟨_, _ :: rest⟩ 1 _ := .link inside named stands empty
          obtain ⟨left, links, final, spent, later, ends⟩ := ih _
          refine ⟨left, links + 1, final, by omega, ?_, ends⟩
          exact way.trans (.step link later)

theorem arrive_cases (files : Files) (budget : Nat) (position : Position) :
    (∃ links ≤ budget, ∃ location, Way files position links ⟨location, []⟩ ∧
      files.arrive budget position = .ok location) ∨
    ∃ left links final error, left + links = budget ∧ Way files position links final ∧
      Stuck files left final error ∧ files.arrive budget position = .error error := by
  obtain ⟨left, links, ⟨location, steps⟩, rfl, way, through | ⟨error, stuck⟩⟩ :=
    exists_way files budget position
  · cases through
    refine .inl ⟨links, Nat.le_add_left links left, location, way, ?_⟩
    rw [way.arrive, arrive_nil]
  · refine .inr ⟨left, links, _, error, rfl, way, stuck, ?_⟩
    rw [way.arrive, stuck.arrive]

theorem arrive_eq_ok_iff {location : Location} :
    files.arrive left position = .ok location ↔
      ∃ links ≤ left, Way files position links ⟨location, []⟩ := by
  constructor
  · intro arrived
    obtain ⟨links, within, last, way, same⟩ | ⟨_, _, _, _, _, _, _, failed⟩ :=
      arrive_cases files left position
    · cases same.symm.trans arrived
      exact ⟨links, within, way⟩
    · cases failed.symm.trans arrived
  · rintro ⟨links, within, way⟩
    obtain ⟨rest, rfl⟩ := Nat.exists_eq_add_of_le' within
    rw [way.arrive, arrive_nil]

theorem arrive_eq_error_iff :
    files.arrive left position = .error error ↔
      ∃ rest links final, rest + links = left ∧ Way files position links final ∧
        Stuck files rest final error := by
  constructor
  · intro failed
    obtain ⟨_, _, _, _, arrived⟩ | ⟨rest, links, final, other, spent, way, stuck, same⟩ :=
      arrive_cases files left position
    · cases arrived.symm.trans failed
    · cases same.symm.trans failed
      exact ⟨rest, links, final, spent, way, stuck⟩
  · rintro ⟨rest, links, final, rfl, way, stuck⟩
    rw [way.arrive, stuck.arrive]

theorem arrive_append_of_error (failed : files.arrive left position = .error error)
    (more : List Name) : files.arrive left (position.append more) = .error error := by
  obtain ⟨rest, links, final, spent, way, stuck⟩ := arrive_eq_error_iff.mp failed
  exact arrive_eq_error_iff.mpr
    ⟨rest, links, final.append more, spent, way.append more, stuck.append more⟩

theorem arrive_append_of_ok {location : Location}
    (arrived : files.arrive left position = .ok location) :
    ∃ rest ≤ left, ∀ more,
      files.arrive left (position.append more) = files.arrive rest ⟨location, more⟩ := by
  obtain ⟨links, within, way⟩ := arrive_eq_ok_iff.mp arrived
  obtain ⟨rest, rfl⟩ := Nat.exists_eq_add_of_le' within
  exact ⟨rest, Nat.le_add_right rest links, fun more => (way.append more).arrive rest⟩

theorem arrive_append_here_iff {location : Location} :
    files.arrive left (position.append [here]) = .ok location ↔
      files.arrive left position = .ok location ∧ files.isDirectory location = true := by
  cases arrived : files.arrive left position with
  | error error => simp [arrive_append_of_error arrived]
  | ok other =>
      obtain ⟨rest, _, onward⟩ := arrive_append_of_ok arrived
      rw [onward]
      cases inside : files.isDirectory other with
      | false =>
          rw [(Stuck.outside inside).arrive]
          simp only [reduceCtorEq, Except.ok.injEq, false_iff, not_and]
          rintro rfl
          simp [inside]
      | true =>
          have stay : Way files ⟨other, [here]⟩ 0 ⟨other, []⟩ := .step (.stay inside) .refl
          rw [← Nat.add_zero rest, stay.arrive, arrive_nil]
          simp only [Except.ok.injEq, iff_self_and]
          rintro rfl
          exact inside

theorem Stuck.kind_ne (stuck : Stuck files left position error) :
    error.kind ≠ .alreadyExists := by
  cases stuck <;> decide

end

end PipeCast.Files
