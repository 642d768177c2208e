import PipeCast.Proofs.Files.Growth
import PipeCast.Startup.Provision

/-!
# What provisioning comes to

Making the pipe does not follow a link at the end of its path, and looking at it does. Taken
together the two looks say what the path leads to: a pipe, something else, or nothing; and where
it leads to nothing a pipe is made if there is room for one. An error is what keeps the path
from leading anywhere, whichever look meets it.
-/

set_option autoImplicit false

namespace PipeCast

namespace Provision

open Files

/-- What provisioning comes to, and the tree it leaves. -/
inductive Rule (files : Files) (path : List UInt8) :
    Files → Except StartupFailure Outcome → Prop where
  | nul (has : nul ∈ path) :
      Rule files path files
        (.error (.provision path (.custom .invalidInput "path contains a nul byte")))
  | made {directory name} (free : nul ∉ path) (room : files.Room path directory name) :
      Rule files path (files.put (name :: directory) (.pipe (pipeMode &&& ~~~files.mask)))
        (.ok .created)
  | present {mode} (free : nul ∉ path) (shows_ : files.Shows path (.pipe mode)) :
      Rule files path files (.ok .alreadyPresent)
  | occupied {node} (free : nul ∉ path) (shows_ : files.Shows path node)
      (other : ∀ mode, node ≠ .pipe mode) :
      Rule files path files (.error (.notAPipe path))
  | failed {error} (free : nul ∉ path) (full : ∀ directory name, ¬ files.Room path directory name)
      (fails : files.Fails path error) :
      Rule files path files (.error (.provision path error))

section

variable {files after : Files} {path : List UInt8} {outcome : Except StartupFailure Outcome}

theorem provision_of_free (free : nul ∉ path) :
    provision files path =
      match files.create path (.pipe (pipeMode &&& ~~~files.mask)) with
      | .ok changed => (changed, .ok .created)
      | .error source =>
          if source.kind = .alreadyExists then
            match files.look path with
            | .error source => (files, .error (.provision path source))
            | .ok (.pipe _) => (files, .ok .alreadyPresent)
            | .ok _ => (files, .error (.notAPipe path))
          else (files, .error (.provision path source)) := by
  rw [provision, if_neg free]
  rfl

theorem Rule.provision (rule : Rule files path after outcome) :
    provision files path = (after, outcome) := by
  have plain : Node.pipe (pipeMode &&& ~~~files.mask) ≠ .directory := nofun
  have there : IoError.alreadyThere.kind = .alreadyExists := by decide
  cases rule with
  | nul has => rw [PipeCast.provision, if_pos has]
  | made free room => rw [provision_of_free free, room.create _ plain]
  | present free shows_ =>
      rw [provision_of_free free, shows_.create _ plain, shows_.look]
      exact if_pos there
  | @occupied node free shows_ other =>
      rw [provision_of_free free, shows_.create _ plain, shows_.look]
      cases node with
      | pipe mode => exact absurd rfl (other mode)
      | _ => exact if_pos there
  | failed free full fails =>
      rw [provision_of_free free, fails.look]
      rcases fails.create full _ plain with taken | ⟨failed, kind⟩
      · rw [taken]
        exact if_pos there
      · rw [failed]
        exact if_neg kind

theorem exists_rule (files : Files) (path : List UInt8) :
    ∃ after outcome, Rule files path after outcome := by
  by_cases has : nul ∈ path
  · exact ⟨_, _, .nul has⟩
  by_cases room : ∃ directory name, files.Room path directory name
  · obtain ⟨directory, name, room⟩ := room
    exact ⟨_, _, .made has room⟩
  obtain ⟨node, shows_⟩ | ⟨error, fails⟩ := shows_or_fails files path
  · by_cases isPipe : ∃ mode, node = .pipe mode
    · obtain ⟨mode, rfl⟩ := isPipe
      exact ⟨_, _, .present has shows_⟩
    · exact ⟨_, _, .occupied has shows_ fun mode same => isPipe ⟨mode, same⟩⟩
  · exact ⟨_, _, .failed has (fun directory name found => room ⟨directory, name, found⟩) fails⟩

theorem rule_iff : Rule files path after outcome ↔ provision files path = (after, outcome) := by
  refine ⟨Rule.provision, fun same => ?_⟩
  obtain ⟨later, other, rule⟩ := exists_rule files path
  rw [rule.provision] at same
  cases same
  exact rule

theorem exists_rule_of_outcome (found : (provision files path).2 = outcome) :
    ∃ after, (provision files path).1 = after ∧ Rule files path after outcome :=
  ⟨_, rfl, rule_iff.mpr (Prod.ext rfl found)⟩

/-! ## When provisioning comes to what -/

theorem outcome_eq_alreadyPresent_iff :
    (provision files path).2 = .ok .alreadyPresent ↔
      nul ∉ path ∧ ∃ mode, files.Shows path (.pipe mode) := by
  constructor
  · intro found
    obtain ⟨after, _, rule⟩ := exists_rule_of_outcome found
    cases rule with
    | present free shows_ => exact ⟨free, _, shows_⟩
  · rintro ⟨free, mode, shows_⟩
    rw [(Rule.present free shows_).provision]

theorem outcome_eq_notAPipe_iff :
    (provision files path).2 = .error (.notAPipe path) ↔
      nul ∉ path ∧ ∃ node, files.Shows path node ∧ ∀ mode, node ≠ .pipe mode := by
  constructor
  · intro found
    obtain ⟨after, _, rule⟩ := exists_rule_of_outcome found
    cases rule with
    | occupied free shows_ other => exact ⟨free, _, shows_, other⟩
  · rintro ⟨free, node, shows_, other⟩
    rw [(Rule.occupied free shows_ other).provision]

theorem outcome_eq_created_iff :
    (provision files path).2 = .ok .created ↔
      nul ∉ path ∧ ∃ directory name, files.Room path directory name := by
  constructor
  · intro found
    obtain ⟨after, _, rule⟩ := exists_rule_of_outcome found
    cases rule with
    | made free room => exact ⟨free, _, _, room⟩
  · rintro ⟨free, directory, name, room⟩
    rw [(Rule.made free room).provision]

theorem outcome_eq_provision_iff {source : IoError} :
    (provision files path).2 = .error (.provision path source) ↔
      nul ∈ path ∧ source = .custom .invalidInput "path contains a nul byte" ∨
      nul ∉ path ∧ (∀ directory name, ¬ files.Room path directory name) ∧
        files.Fails path source := by
  constructor
  · intro found
    obtain ⟨after, _, rule⟩ := exists_rule_of_outcome found
    cases rule with
    | nul has => exact .inl ⟨has, rfl⟩
    | failed free full fails => exact .inr ⟨free, full, fails⟩
  · rintro (⟨has, rfl⟩ | ⟨free, full, fails⟩)
    · rw [(Rule.nul has).provision]
    · rw [(Rule.failed free full fails).provision]

/-- Provisioning finds a pipe, or something else, exactly if the path leads there with all its
links followed, and makes a pipe exactly if there is room for one. Otherwise it reports the path
as it was given, with the error of the look that failed: the first, or the second after the
first had found an entry. That error is what keeps the path from leading anywhere, unless the
path holds a byte that no path may hold. -/
theorem provision_follows_resolution (files : Files) (path : List UInt8) :
    let outcome := (provision files path).2
    (outcome = .ok .alreadyPresent ↔ nul ∉ path ∧ ∃ mode, files.Shows path (.pipe mode)) ∧
    (outcome = .error (.notAPipe path) ↔
      nul ∉ path ∧ ∃ node, files.Shows path node ∧ ∀ mode, node ≠ .pipe mode) ∧
    (outcome = .ok .created ↔ nul ∉ path ∧ ∃ directory name, files.Room path directory name) ∧
    (∀ source, outcome = .error (.provision path source) ↔
      nul ∈ path ∧ source = .custom .invalidInput "path contains a nul byte" ∨
      nul ∉ path ∧ (∀ directory name, ¬ files.Room path directory name) ∧
        files.Fails path source) ∧
    (outcome = .ok .alreadyPresent ∨ outcome = .error (.notAPipe path) ∨
      outcome = .ok .created ∨ ∃ source, outcome = .error (.provision path source)) ∧
    ∀ source, outcome = .error (.provision path source) → nul ∉ path →
      source.number? ∈ [some 2, some 20, some 36, some 40] ∧
      (files.makePipe path pipeMode = .error source ∨
        files.makePipe path pipeMode = .error .alreadyThere ∧
          files.look path = .error source) := by
  intro outcome
  refine ⟨outcome_eq_alreadyPresent_iff, outcome_eq_notAPipe_iff, outcome_eq_created_iff,
    fun source => outcome_eq_provision_iff, ?_, fun source found free => ?_⟩
  · obtain ⟨after, result, rule⟩ := exists_rule files path
    have same : outcome = result := congrArg Prod.snd rule.provision
    rw [same]
    cases rule with
    | nul => exact .inr (.inr (.inr ⟨_, rfl⟩))
    | made => exact .inr (.inr (.inl rfl))
    | present => exact .inl rfl
    | occupied => exact .inr (.inl rfl)
    | failed => exact .inr (.inr (.inr ⟨_, rfl⟩))
  · obtain ⟨has, _⟩ | ⟨_, full, fails⟩ := outcome_eq_provision_iff.mp found
    · exact absurd has free
    refine ⟨fails.number?_mem, ?_⟩
    rcases fails.create full (.pipe (pipeMode &&& ~~~files.mask)) nofun with taken | ⟨failed, _⟩
    · exact .inr ⟨taken, fails.look⟩
    · exact .inl failed

/-! ## What provisioning leaves -/

/-- Provisioning leaves every entry as it was. Unless it makes a pipe it leaves the whole tree as
it was, and what it makes is one entry more, where there was none, in the directory that the
path's parent leads to: a pipe that its owner may read and write as far as the mask lets it. -/
theorem provision_adds_one_entry (files : Files) (path : List UInt8) :
    let after := (provision files path).1
    let outcome := (provision files path).2
    (∀ location node, files.node? location = some node → after.node? location = some node) ∧
    (outcome ≠ .ok .created → after = files) ∧
    (outcome = .ok .created → ∃ directory name, files.Room path directory name ∧
      files.node? (name :: directory) = none ∧
      after = { files with
        nodes := (name :: directory, .pipe (0o600 &&& ~~~files.mask)) :: files.nodes } ∧
      after.node? (name :: directory) = some (.pipe (0o600 &&& ~~~files.mask)) ∧
      ∀ location, location ≠ name :: directory →
        after.node? location = files.node? location) := by
  obtain ⟨after, outcome, rule⟩ := exists_rule files path
  rw [rule.provision]
  cases rule with
  | @made directory name free room =>
      refine ⟨(keeps_put room.vacant _).stands, fun unmade => absurd rfl unmade, fun _ => ?_⟩
      refine ⟨directory, name, room, room.vacant, put_of_vacant room.vacant _,
        node?_put_self files directory name _, fun location elsewhere => ?_⟩
      exact node?_put_of_ne room.vacant _ elsewhere
  | nul | present | occupied | failed =>
      exact ⟨fun _ _ stands => stands, fun _ => rfl, nofun⟩

/-! ## Provisioning again -/

/-- Calls one after another, each with a mask of its own. -/
def provisionAgain (files : Files) (path : List UInt8) :
    List Mode → Files × List (Except StartupFailure Outcome)
  | [] => (files, [])
  | mask :: later =>
      let (between, outcome) := provision { files with mask := mask } path
      let (final, outcomes) := provisionAgain between path later
      (final, outcome :: outcomes)

theorem exists_pipe_of_provision {outcome : Outcome} (done : (provision files path).2 = .ok outcome) :
    nul ∉ path ∧ ∃ mode, (provision files path).1.Shows path (.pipe mode) := by
  obtain ⟨after, same, rule⟩ := exists_rule_of_outcome done
  rw [same]
  cases rule with
  | made free room =>
      exact ⟨free, _, _, room.leadsTo_put nofun, node?_put_self files _ _ _⟩
  | present free shows_ => exact ⟨free, _, shows_⟩

theorem provisionAgain_of_shows {mode : Mode} (free : nul ∉ path)
    (shows_ : files.Shows path (.pipe mode)) (masks : List Mode) :
    provisionAgain files path masks =
      ({ files with mask := masks.getLast?.getD files.mask },
        List.replicate masks.length (.ok .alreadyPresent)) := by
  induction masks generalizing files with
  | nil => rfl
  | cons mask later ih =>
      have still := shows_.of_keeps (Keeps.masked files mask)
      rw [provisionAgain, (Rule.present free still).provision]
      simp only [ih still, List.getLast?_cons, Option.getD_some, List.length_cons,
        List.replicate_succ]

/-- Once provisioning has succeeded the path leads to a pipe. However often it is called again,
and under whatever masks, it finds that pipe each time and changes nothing: neither what is in
the tree nor what the pipe permits. -/
theorem provision_again_finds_pipe {outcome : Outcome}
    (done : (provision files path).2 = .ok outcome) :
    let after := (provision files path).1
    ∃ location mode, after.LeadsTo path location ∧
      after.node? location = some (.pipe mode) ∧
      ∀ masks,
        (provisionAgain after path masks).2 =
          List.replicate masks.length (.ok .alreadyPresent) ∧
        (provisionAgain after path masks).1 =
          { after with mask := masks.getLast?.getD after.mask } ∧
        (provisionAgain after path masks).1.LeadsTo path location ∧
        (provisionAgain after path masks).1.node? location = some (.pipe mode) := by
  intro after
  obtain ⟨free, mode, location, leads, stands⟩ := exists_pipe_of_provision done
  refine ⟨location, mode, leads, stands, fun masks => ?_⟩
  rw [provisionAgain_of_shows free ⟨location, leads, stands⟩]
  have keeps := Keeps.masked after (masks.getLast?.getD after.mask)
  exact ⟨rfl, rfl, leads.of_keeps keeps, keeps.stands _ _ stands⟩

/-- The way to the pipe goes through a link and back again, and the mask forbids everything. -/
theorem forbidden_pipe_is_found_again :
    let files : Files := { scratch with
      nodes := ([Text.Utf8.bytesOf "in", work, temporary],
        .link (Text.Utf8.bytesOf "../work/.")) :: scratch.nodes
      mask := 0o777 }
    let path := Text.Utf8.bytesOf "in/.//pipe"
    (provision files path).2 = .ok .created ∧
      (provision files path).1.node? [Text.Utf8.bytesOf "pipe", work, temporary] =
        some (.pipe 0) ∧
      (provisionAgain (provision files path).1 path [0o022, 0]).2 =
        [.ok .alreadyPresent, .ok .alreadyPresent] ∧
      (provisionAgain (provision files path).1 path [0o022, 0]).1.nodes =
        (provision files path).1.nodes := by
  intro files path
  have done : (provision files path).2 = .ok .created := by rfl
  have made : (provision files path).1.node? [Text.Utf8.bytesOf "pipe", work, temporary] =
      some (.pipe 0) := by decide
  obtain ⟨location, mode, _, _, again⟩ := provision_again_finds_pipe done
  obtain ⟨outcomes, final, _, _⟩ := again [0o022, 0]
  refine ⟨done, made, outcomes, ?_⟩
  rw [final]

end

end Provision

end PipeCast
