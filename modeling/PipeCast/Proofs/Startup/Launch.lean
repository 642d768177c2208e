import PipeCast.Proofs.Startup.Provision
import PipeCast.Startup.Launch

/-!
# Starts that fail, and the starts after them

The first stage that fails stops a start. Only provisioning touches the tree, so a start leaves
the tree that provisioning left: as it was, if provisioning failed, and else one in which the
path leads to a pipe. That pipe is what the next start finds.
-/

set_option autoImplicit false

namespace PipeCast

open Text

namespace Launch

/-- Whether a start got past provisioning, as its result tells. -/
def isPastProvisioning (launch : Launch) : Bool :=
  match launch.result with
  | .error (.provision ..) | .error (.notAPipe _) => false
  | _ => true

section

variable {services : Services} {files : Files} {config : Config} {outcome : Provision.Outcome}

/-! ## The first stage that fails -/

theorem launchOn_of_error {failure : StartupFailure}
    (stops : (provision files (Utf8.bytesOf config.pipePath)).2 = .error failure) :
    launchOn services files config = ⟨files, [], false, none, .error failure⟩ := by
  obtain ⟨after, left, rule⟩ := Provision.exists_rule_of_outcome stops
  have unchanged : after = files := by cases rule <;> rfl
  rw [launchOn, rule.provision, unchanged]

theorem launchOn_of_ok
    (passes : (provision files (Utf8.bytesOf config.pipePath)).2 = .ok outcome) :
    launchOn services files config =
      proceed services (provision files (Utf8.bytesOf config.pipePath)).1 config outcome := by
  obtain ⟨after, left, rule⟩ := Provision.exists_rule_of_outcome passes
  rw [launchOn, rule.provision]

theorem proceed_past (services : Services) (files : Files) (config : Config)
    (outcome : Provision.Outcome) :
    (proceed services files config outcome).files = files ∧
      (proceed services files config outcome).isPastProvisioning = true := by
  rw [proceed]
  cases services.thread with
  | error source => exact ⟨rfl, rfl⟩
  | ok =>
      cases services.bind config.port with
      | error source => exact ⟨rfl, rfl⟩
      | ok =>
          cases services.serve with
          | error source => exact ⟨rfl, rfl⟩
          | ok => exact ⟨rfl, rfl⟩

theorem launchOn_shows_of_ok (services : Services)
    (passes : (provision files (Utf8.bytesOf config.pipePath)).2 = .ok outcome) :
    (launchOn services files config).files =
        (provision files (Utf8.bytesOf config.pipePath)).1 ∧
      Provision.nul ∉ Utf8.bytesOf config.pipePath ∧
      ∃ mode, (launchOn services files config).files.Shows (Utf8.bytesOf config.pipePath)
        (.pipe mode) := by
  have left : (launchOn services files config).files =
      (provision files (Utf8.bytesOf config.pipePath)).1 := by
    rw [launchOn_of_ok passes]
    exact (proceed_past _ _ _ _).1
  obtain ⟨free, mode, shows_⟩ := Provision.exists_pipe_of_provision passes
  rw [left]
  exact ⟨rfl, free, mode, shows_⟩

/-- The stages after provisioning: each is begun only if those before it went well. -/
theorem proceed_result (services : Services) (files : Files) (config : Config)
    (outcome : Provision.Outcome) :
    let start := proceed services files config outcome
    let address := Address.anyInterface config.port
    (∀ source, services.thread = .error source →
      start.result = .error (.readerSpawn source) ∧ start.startedReader = false ∧
        start.bound = none) ∧
    (services.thread = .ok () → start.startedReader = true ∧
      (∀ source, services.bind config.port = .error source →
        start.result = .error (.bind address source) ∧ start.bound = none) ∧
      (services.bind config.port = .ok () → start.bound = some address ∧
        (∀ source, services.serve = .error source → start.result = .error (.serve source)) ∧
        (services.serve = .ok () → start.result = .ok address))) := by
  intro start address
  have begun : start = proceed services files config outcome := rfl
  rw [proceed] at begun
  constructor
  · intro source refused
    rw [begun, refused]
    exact ⟨rfl, rfl, rfl⟩
  · intro read
    rw [begun, read]
    cases services.bind config.port with
    | error source =>
        refine ⟨rfl, fun _ refused => ?_, nofun⟩
        cases refused
        exact ⟨rfl, rfl⟩
    | ok =>
        cases services.serve with
        | error source =>
            refine ⟨rfl, nofun, fun _ => ⟨rfl, fun _ ended => ?_, nofun⟩⟩
            cases ended
            rfl
        | ok => exact ⟨rfl, nofun, fun _ => ⟨rfl, nofun, fun _ => rfl⟩⟩

theorem isPastProvisioning_iff :
    (launchOn services files config).isPastProvisioning = true ↔
      ∃ outcome, (provision files (Utf8.bytesOf config.pipePath)).2 = .ok outcome := by
  constructor
  · intro past
    cases found : (provision files (Utf8.bytesOf config.pipePath)).2 with
    | ok outcome => exact ⟨outcome, rfl⟩
    | error failure =>
        -- Provisioning fails with its own two failures only, and no other stage returns them.
        obtain ⟨after, _, rule⟩ := Provision.exists_rule_of_outcome found
        rw [launchOn_of_error found] at past
        cases rule <;> cases past
  · rintro ⟨outcome, passes⟩
    rw [launchOn_of_ok passes]
    exact (proceed_past _ _ _ _).2

theorem launch_result_of_ok (host : Host)
    (passes : (provision host.files (Utf8.bytesOf config.pipePath)).2 = .ok outcome) :
    (launch host config).result =
      if config.port ≠ 0 ∧ config.port ∈ host.taken then
        .error (.bind (.anyInterface config.port) .addressInUse)
      else .ok (.anyInterface config.port) := by
  rw [launch, launchOn_of_ok passes, proceed]
  by_cases inUse : config.port ≠ 0 ∧ config.port ∈ host.taken
  · rw [if_pos inUse]
    simp only [Host.services, Host.bind, if_pos inUse]
  · rw [if_neg inUse]
    simp only [Host.services, Host.bind, if_neg inUse]

/-! ## The starts after it -/

/-- What surrounds one start: the mask it runs under and the answers it gets. -/
structure Circumstances where
  mask : Files.Mode
  services : Services

/-- Starts with one configuration, each on the tree that the one before it left. -/
def launchAgain (config : Config) (files : Files) : List Circumstances → Files × List Launch
  | [] => (files, [])
  | ⟨mask, services⟩ :: later =>
      let launch := launchOn services { files with mask := mask } config
      let (final, launches) := launchAgain config launch.files later
      (final, launch :: launches)

/-- A start on a tree that has the pipe already. -/
def resumed (config : Config) (files : Files) (round : Circumstances) : Launch :=
  proceed round.services { files with mask := round.mask } config .alreadyPresent

theorem launchOn_of_shows {mode : Files.Mode} (free : Provision.nul ∉ Utf8.bytesOf config.pipePath)
    (shows_ : files.Shows (Utf8.bytesOf config.pipePath) (.pipe mode)) (round : Circumstances) :
    launchOn round.services { files with mask := round.mask } config =
      resumed config files round := by
  have still := shows_.of_keeps (.masked files round.mask)
  rw [launchOn, (Provision.Rule.present free still).provision]
  rfl

theorem launchAgain_of_shows {mode : Files.Mode}
    (free : Provision.nul ∉ Utf8.bytesOf config.pipePath)
    (shows_ : files.Shows (Utf8.bytesOf config.pipePath) (.pipe mode))
    (rounds : List Circumstances) :
    launchAgain config files rounds =
      ({ files with mask := (rounds.map (·.mask)).getLast?.getD files.mask },
        rounds.map (resumed config files)) := by
  -- Each start leaves the tree with another mask, in which the path still leads to the pipe.
  induction rounds generalizing files with
  | nil => rfl
  | cons round later ih =>
      have still := shows_.of_keeps (.masked files round.mask)
      have left : (resumed config files round).files = { files with mask := round.mask } :=
        (proceed_past _ _ _ _).1
      rw [launchAgain, launchOn_of_shows free shows_ round, left, ih still]
      simp only [List.map_cons, List.getLast?_cons, Option.getD_some]
      -- A later start sees the tree under its own mask only.
      rfl

theorem launchAgain_finds_pipe {mode : Files.Mode}
    (free : Provision.nul ∉ Utf8.bytesOf config.pipePath)
    (shows_ : files.Shows (Utf8.bytesOf config.pipePath) (.pipe mode))
    (rounds : List Circumstances) :
    let final := (launchAgain config files rounds).1
    let launches := (launchAgain config files rounds).2
    launches = rounds.map (resumed config files) ∧
    (∀ launch ∈ launches, launch.isPastProvisioning = true) ∧
    final = { files with mask := (rounds.map (·.mask)).getLast?.getD files.mask } ∧
    final.Shows (Utf8.bytesOf config.pipePath) (.pipe mode) ∧
    ∀ mask next, next.thread = .ok () → next.bind config.port = .ok () → next.serve = .ok () →
      (launchOn next { final with mask := mask } config).result =
        .ok (.anyInterface config.port) := by
  intro final launches
  have run := launchAgain_of_shows free shows_ rounds
  have begun : launches = rounds.map (resumed config files) := congrArg Prod.snd run
  have ended : final =
      { files with mask := (rounds.map (·.mask)).getLast?.getD files.mask } :=
    congrArg Prod.fst run
  have still : final.Shows (Utf8.bytesOf config.pipePath) (.pipe mode) := by
    rw [ended]
    exact shows_.of_keeps (.masked _ _)
  refine ⟨begun, fun launch member => ?_, ended, still, fun mask next read bound served => ?_⟩
  · rw [begun] at member
    obtain ⟨round, _, rfl⟩ := List.mem_map.mp member
    exact (proceed_past _ _ _ _).2
  · rw [launchOn_of_shows free still ⟨mask, next⟩]
    obtain ⟨_, begins⟩ := proceed_result next { final with mask := mask } config .alreadyPresent
    obtain ⟨_, _, serves⟩ := begins read
    exact (serves bound).2.2 served

/-- The first stage that fails decides what a start returns: provisioning with its own error, the
tree as it was, no reader started and no port bound; the thread of the reader, with no port bound;
the port, with its address on every interface; serving. On a host a port in use is all that can stop a start that has its pipe.
Such a start leaves the tree of provisioning, where the path leads to a pipe, whichever stage
stops it. So every later start finds that pipe and leaves it there, whatever its mask and
whatever stops it in its turn, and the next one that nothing stops serves. -/
theorem start_fails_at_first_stage (services : Services) (files : Files) (config : Config) :
    let path := Utf8.bytesOf config.pipePath
    let start := launchOn services files config
    let address := Address.anyInterface config.port
    (∀ failure, (provision files path).2 = .error failure →
      start = ⟨files, [], false, none, .error failure⟩) ∧
    (∀ outcome, (provision files path).2 = .ok outcome →
      start.files = (provision files path).1 ∧
      (∃ mode, start.files.Shows path (.pipe mode)) ∧
      (∀ source, services.thread = .error source →
        start.result = .error (.readerSpawn source) ∧ start.startedReader = false ∧
          start.bound = none) ∧
      (services.thread = .ok () → start.startedReader = true ∧
        (∀ source, services.bind config.port = .error source →
          start.result = .error (.bind address source) ∧ start.bound = none) ∧
        (services.bind config.port = .ok () → start.bound = some address ∧
          (∀ source, services.serve = .error source → start.result = .error (.serve source)) ∧
          (services.serve = .ok () → start.result = .ok address))) ∧
      ∀ taken isReachable, (launch ⟨files, taken, isReachable⟩ config).result =
        if config.port ≠ 0 ∧ config.port ∈ taken then .error (.bind address .addressInUse)
        else .ok address) ∧
    address.text = "0.0.0.0:" ++ toString config.port.toNat ∧
    (start.isPastProvisioning = true → ∀ rounds,
      let final := (launchAgain config start.files rounds).1
      let launches := (launchAgain config start.files rounds).2
      launches = rounds.map (resumed config start.files) ∧
      (∀ launch ∈ launches, launch.isPastProvisioning = true) ∧
      final = { start.files with mask := (rounds.map (·.mask)).getLast?.getD start.files.mask } ∧
      (∃ mode, final.Shows path (.pipe mode)) ∧
      ∀ mask next, next.thread = .ok () → next.bind config.port = .ok () →
        next.serve = .ok () →
        (launchOn next { final with mask := mask } config).result = .ok address) := by
  intro path start address
  refine ⟨fun failure stops => launchOn_of_error stops, fun outcome passes => ?_, rfl, ?_⟩
  · obtain ⟨left, _, shows_⟩ := launchOn_shows_of_ok services passes
    have same : start = proceed services (provision files path).1 config outcome :=
      launchOn_of_ok passes
    obtain ⟨refused, read⟩ := proceed_result services (provision files path).1 config outcome
    rw [← same] at refused read
    exact ⟨left, shows_, refused, read,
      fun taken isReachable => launch_result_of_ok ⟨files, taken, isReachable⟩ passes⟩
  · intro past rounds
    obtain ⟨outcome, passes⟩ := isPastProvisioning_iff.mp past
    obtain ⟨_, free, mode, shows_⟩ := launchOn_shows_of_ok services passes
    obtain ⟨begun, past, ended, still, serves⟩ := launchAgain_finds_pipe free shows_ rounds
    exact ⟨begun, past, ended, ⟨mode, still⟩, serves⟩

/-- The port is in use at first, and the next start runs under a mask that forbids everything. -/
theorem refused_start_is_made_good :
    let config : Config := ⟨8420, "pipe", 5, false⟩
    let first := launch ⟨.scratch, [8420], false⟩ config
    first.result = .error (.bind (.anyInterface 8420) .addressInUse) ∧ first.bound = none ∧
      first.files.node? [Utf8.bytesOf "pipe", Files.work, Files.temporary] = some (.pipe 0o600) ∧
      (launch ⟨{ first.files with mask := 0o777 }, [], false⟩ config).result =
        .ok (.anyInterface 8420) := by
  intro config first
  have made : (provision .scratch (Utf8.bytesOf config.pipePath)).2 = .ok .created := by decide
  have past : first.isPastProvisioning = true := isPastProvisioning_iff.mpr ⟨_, made⟩
  have stands : first.files.node? [Utf8.bytesOf "pipe", Files.work, Files.temporary] =
      some (.pipe 0o600) := by decide
  let busy : Host := ⟨.scratch, [8420], false⟩
  obtain ⟨_, passed, _, later⟩ := start_fails_at_first_stage busy.services .scratch config
  obtain ⟨_, _, _, read, _⟩ := passed _ made
  obtain ⟨_, refused, _⟩ := read rfl
  obtain ⟨result, unbound⟩ := refused .addressInUse rfl
  obtain ⟨_, _, _, _, serves⟩ := later past []
  exact ⟨result, unbound, stands, serves 0o777 _ rfl rfl rfl⟩

end

end Launch

end PipeCast
