import PipeCast.Proofs.Hub.Course
import PipeCast.Proofs.Hub.Simulation

/-!
# The reports of a run

A broadcast is answered with its report, and the answers of the scripts that ran within it
come with that report. So the answers of a run hold one report for every broadcast that has
ended, at whatever depth, and no other: they are the reports of the broadcasts that the moves
of the run bring to an end. Their order differs, since scripts are answered in the order in
which they are given and not in that of the failures.
-/

set_option autoImplicit false

namespace PipeCast.Hub

/-! ## Reports in answers -/

mutual

/-- The reports in an answer: those of the scripts and then that of the broadcast. -/
def Reply.reports : Reply → List Report
  | .broadcast report scripts => reportsOfScripts scripts ++ [report]
  | .readPipe (.ended _ _ sent _) => sent
  | _ => []

def reportsOfScripts : List (Option (List (Reply × Nat))) → List Report
  | [] => []
  | none :: rest => reportsOfScripts rest
  | some answers :: rest => reportsOfAnswers answers ++ reportsOfScripts rest

def reportsOfAnswers : List (Reply × Nat) → List Report
  | [] => []
  | (reply, _) :: rest => reply.reports ++ reportsOfAnswers rest

end

def reportsOfNote (note : Option (List (Reply × Nat))) : List Report :=
  (note.map reportsOfAnswers).getD []

theorem reportsOfScripts_cons (note : Option (List (Reply × Nat)))
    (notes : List (Option (List (Reply × Nat)))) :
    reportsOfScripts (note :: notes) = reportsOfNote note ++ reportsOfScripts notes := by
  cases note with
  | none => simp [reportsOfScripts, reportsOfNote]
  | some answers => simp [reportsOfScripts, reportsOfNote]

theorem reportsOfScripts_unplayed {Given : Type} (scripts : List Given) :
    reportsOfScripts (scripts.map fun _ => none) = [] := by
  induction scripts with
  | nil => simp [reportsOfScripts]
  | cons script rest ih => simpa [reportsOfScripts] using ih

theorem reports_run_of_isPlain {step : Step} (plain : step.isPlain = true) (hub : Hub) :
    (step.run hub).2.reports = [] := by
  cases step with
  | clone name copy | dropHandle name | register id name | withdraw id name
  | deliver name text =>
      simp only [Step.run, onHandle]
      cases hub.channelOf? (.named name) <;> simp [Reply.reports]
  | dropReceiver name | drain name =>
      simp only [Step.run, onReceiver]
      cases hub.receiverOf? (.named name) <;> simp [Reply.reports]
  | showKept label | release label =>
      simp only [Step.run]
      cases hub.kept? label <;> simp [Reply.reports]
  | sameClient first second =>
      simp only [Step.run, onHandle]
      cases hub.channelOf? (.named first) with
      | none => simp [Reply.reports]
      | some left => cases hub.channelOf? (.named second) <;> simp [Reply.reports]
  | broadcast | readPipe => cases plain
  | _ => simp [Step.run, Reply.reports]

/-! ## Reports in the history -/

@[simp] def Event.report? : Event → Option Report
  | .ended _ report => some report
  | _ => none

/-- The reports of the broadcasts that have ended, in the order in which they ended. -/
def reportsIn (events : List Event) : List Report :=
  events.filterMap Event.report?

@[simp] theorem reportsIn_append (earlier later : List Event) :
    reportsIn (earlier ++ later) = reportsIn earlier ++ reportsIn later :=
  List.filterMap_append

@[simp] theorem reportsIn_singleton (event : Event) :
    reportsIn [event] = event.report?.toList := by
  cases event <;> rfl

theorem Beside.reportsIn_eq {before after : Hub} (beside : before.Beside after) :
    reportsIn after.history = reportsIn before.history := by
  obtain ⟨_, _, events, history, free⟩ := beside
  have nothing : reportsIn events = [] := by
    refine List.filterMap_eq_nil_iff.mpr fun event member => ?_
    have apart := free event member
    cases event <;> first | rfl | cases apart
  rw [history, reportsIn_append, nothing, List.append_nil]

/-- Answers tell of the broadcasts that have ended meanwhile: what the history has gained
and what the answers have gained are the same reports, in whatever order. -/
def Tells (before after : Hub) (answered answeredAfter : List Report) : Prop :=
  (reportsIn after.history ++ answered).Perm (reportsIn before.history ++ answeredAfter)

namespace Tells

variable {before middle after : Hub} {earlier between later : List Report}

theorem of_same (same : reportsIn after.history = reportsIn before.history)
    (answered : List Report) : before.Tells after answered answered := by
  rw [Tells, same]

theorem trans (first : before.Tells middle earlier between)
    (second : middle.Tells after between later) : before.Tells after earlier later := by
  refine List.perm_iff_count.mpr fun report => ?_
  have gained := List.perm_iff_count.mp first report
  have gainedLater := List.perm_iff_count.mp second report
  simp only [List.count_append] at gained gainedLater ⊢
  omega

theorem append_left (tells : before.Tells after earlier later) (front : List Report) :
    before.Tells after (front ++ earlier) (front ++ later) := by
  refine List.perm_iff_count.mpr fun report => ?_
  have gained := List.perm_iff_count.mp tells report
  simp only [List.count_append] at gained ⊢
  omega

theorem append_right (tells : before.Tells after earlier later) (back : List Report) :
    before.Tells after (earlier ++ back) (later ++ back) := by
  rw [Tells, ← List.append_assoc, ← List.append_assoc]
  exact List.Perm.append_right back tells

end Tells

/-! ## Broadcasts -/

/-- The notes of an interlude tell of the broadcasts that end within it, as long as they have
the form that they ought to have after so many failures. -/
def TellsAll {Notes : Type} (interlude : Interlude Notes) (told : Notes → List Report)
    (fits : Nat → Notes → Prop) : Prop :=
  ∀ (failure : Nat) (hub : Hub) (notes : Notes), fits failure notes →
    fits (failure + 1) (interlude failure hub notes).2 ∧
    hub.Tells (interlude failure hub notes).1 (told notes) (told (interlude failure hub notes).2)

theorem tellsAll_none : TellsAll .none (fun _ => []) fun _ _ => True :=
  fun _ _ _ _ => ⟨trivial, .of_same rfl []⟩

section

variable {Notes : Type} {interlude : Interlude Notes} {told : Notes → List Report}
  {fits : Nat → Notes → Prop}

theorem TellsAll.visit (tells : TellsAll interlude told fits) (number : Nat) (text : String)
    (progress : Progress Notes) (entry : ClientId × ChannelId)
    (fit : fits progress.gone.length progress.notes) :
    let next := progress.visit interlude number text entry
    fits next.gone.length next.notes ∧
      progress.hub.Tells next.hub (told progress.notes) (told next.notes) := by
  have delivered : progress.hub.Tells
      (progress.hub.deliver (.broadcast number entry.1) entry.2 text).1
      (told progress.notes) (told progress.notes) := .of_same (by simp) _
  cases reached : progress.hub.isLive entry.2 with
  | true =>
      rw [Progress.visit_of_live interlude number text reached]
      exact ⟨fit, delivered⟩
  | false =>
      rw [Progress.visit_of_dead interlude number text reached]
      obtain ⟨fitAfter, elsewhere⟩ := tells progress.gone.length
        (progress.hub.deliver (.broadcast number entry.1) entry.2 text).1 progress.notes fit
      exact ⟨fitAfter, (delivered.trans elsewhere).trans (.of_same (by simp) _)⟩

theorem TellsAll.turns (tells : TellsAll interlude told fits) (number : Nat) (text : String)
    (roster : Roster) (progress : Progress Notes)
    (fit : fits progress.gone.length progress.notes) :
    let final := roster.foldl (Progress.visit interlude number text) progress
    progress.hub.Tells final.hub (told progress.notes) (told final.notes) := by
  induction roster generalizing progress with
  | nil => exact .of_same rfl _
  | cons entry rest ih =>
      obtain ⟨fitNext, first⟩ := tells.visit number text progress entry fit
      exact first.trans (ih _ fitNext)

theorem TellsAll.broadcastWith (tells : TellsAll interlude told fits) (hub : Hub)
    (message : Message) (notes : Notes) (fit : fits 0 notes) :
    let outcome := hub.broadcastWith interlude message notes
    hub.Tells outcome.1 (told notes) (told outcome.2.2 ++ [outcome.2.1]) := by
  intro outcome
  let final := hub.registry.roster.foldl (Progress.visit interlude hub.begun message.text)
    ⟨hub.begin message, [], 0, notes⟩
  have began : hub.Tells (hub.begin message) (told notes) (told notes) := .of_same (by simp) _
  have turned : (hub.begin message).Tells final.hub (told notes) (told final.notes) :=
    tells.turns hub.begun message.text hub.registry.roster ⟨hub.begin message, [], 0, notes⟩ fit
  have ended : final.hub.Tells outcome.1 (told final.notes)
      (told final.notes ++ [outcome.2.1]) := by
    refine List.perm_iff_count.mpr fun report => ?_
    have history : reportsIn outcome.1.history = reportsIn final.hub.history ++ [outcome.2.1] := by
      simp [outcome, final, Hub.broadcastWith]
    rw [history]
    simp only [List.count_append]
    omega
  exact (began.trans turned).trans ended

end

theorem forwardAll_tells (hub : Hub) (lines : List String) :
    hub.Tells (Reader.forwardAll hub lines).1 [] (Reader.forwardAll hub lines).2 := by
  induction lines generalizing hub with
  | nil => exact .of_same rfl []
  | cons line rest ih =>
      have sent : hub.Tells (hub.broadcast (.line line)).1 [] [(hub.broadcast (.line line)).2] :=
        tellsAll_none.broadcastWith hub (.line line) () trivial
      exact sent.trans ((ih _).append_left [(hub.broadcast (.line line)).2])

theorem round_tells (hub : Hub) (opening : Reader.Opening) :
    hub.Tells (Reader.round hub opening).1 [] (Reply.readPipe (Reader.round hub opening).2).reports := by
  cases opening with
  | failed error => simpa [Reader.round, Reply.reports] using Tells.of_same rfl []
  | opened source =>
      rw [Reader.round_opened]
      simpa [Reply.reports] using forwardAll_tells hub _

/-! ## Scripts -/

def Unplayed (scripts : List (Nat × List Step)) (failure : Nat)
    (notes : List (Option (List (Reply × Nat)))) : Prop :=
  List.Forall₂ (fun script note => failure ≤ script.1 → note = none) scripts notes

theorem unplayed_start (scripts : List (Nat × List Step)) :
    Unplayed scripts 0 ((Step.prepare scripts).map fun _ => none) := by
  induction scripts with
  | nil => exact .nil
  | cons script rest ih => exact .cons (fun _ => rfl) ih

theorem playScripts_unplayed (scripts : List (Nat × List Step)) (failure : Nat) (hub : Hub)
    (notes : List (Option (List (Reply × Nat)))) (fit : Unplayed scripts failure notes) :
    Unplayed scripts (failure + 1)
      (playScripts (Step.prepare scripts) failure hub notes).2 := by
  induction fit generalizing hub with
  | nil => exact .nil
  | @cons script note rest notes unplayed _ ih =>
      obtain ⟨number, steps⟩ := script
      rw [Step.prepare, Moment.playScripts_cons]
      split
      · rename_i due
        exact .cons (fun later => by omega) (ih _)
      · exact .cons (fun later => unplayed (Nat.le_of_succ_le later)) (ih hub)

-- The answers of a script are part of the answer that carries it, so the three laws are
-- proved together by recursion on the steps.
mutual

theorem run_tells (step : Step) (hub : Hub) :
    hub.Tells (step.run hub).1 [] (step.run hub).2.reports := by
  cases step with
  | broadcast message scripts =>
      have tells : TellsAll (playScripts (Step.prepare scripts)) reportsOfScripts
          (Unplayed scripts) := fun failure hub notes fit =>
        ⟨playScripts_unplayed scripts failure hub notes fit,
          playScripts_tells scripts failure hub notes fit⟩
      have sent := tells.broadcastWith hub message _ (unplayed_start scripts)
      rw [reportsOfScripts_unplayed] at sent
      simpa only [Step.run, Reply.reports] using sent
  | readPipe opening =>
      simp only [Step.run]
      exact round_tells hub opening
  | _ =>
      rw [reports_run_of_isPlain rfl]
      exact .of_same (run_beside rfl hub).reportsIn_eq []

theorem runAll_tells (steps : List Step) (hub : Hub) :
    hub.Tells (Step.runAll steps hub).1 [] (reportsOfAnswers (Step.runAll steps hub).2) := by
  cases steps with
  | nil =>
      simp only [Step.runAll, reportsOfAnswers]
      exact .of_same rfl []
  | cons step rest =>
      have others := (runAll_tells rest (step.run hub).1).append_left (step.run hub).2.reports
      rw [List.append_nil] at others
      simp only [Step.runAll, reportsOfAnswers]
      exact (run_tells step hub).trans others

theorem playScripts_tells (scripts : List (Nat × List Step)) (failure : Nat) (hub : Hub)
    (notes : List (Option (List (Reply × Nat)))) (fit : Unplayed scripts failure notes) :
    let played := playScripts (Step.prepare scripts) failure hub notes
    hub.Tells played.1 (reportsOfScripts notes) (reportsOfScripts played.2) := by
  match scripts, notes, fit with
  | [], [], _ => exact .of_same rfl _
  | (number, steps) :: rest, note :: notes, .cons unplayed fitRest =>
      rw [Step.prepare, Moment.playScripts_cons]
      by_cases due : number = failure
      · have nothing : note = none := unplayed (Nat.le_of_eq due.symm)
        subst nothing
        have played := (runAll_tells steps hub).append_right (reportsOfScripts notes)
        have others := playScripts_tells rest failure (Step.runAll steps hub).1 notes fitRest
        simp only [due, if_true, reportsOfScripts]
        exact played.trans (others.append_left _)
      · have others := playScripts_tells rest failure hub notes fitRest
        simp only [due, if_false, reportsOfScripts_cons]
        exact others.append_left (reportsOfNote note)

end

/-! ## Reports of the moves -/

namespace Moment

/-- The report of the broadcast that the next move brings to an end. -/
def concluded : Moment → Option Report
  | ⟨_, [], tour :: _⟩ =>
      match tour.failed, tour.ahead with
      | none, [] => some tour.report
      | _, _ => none
  | _ => none

theorem concluded_of_done {hub : Hub} {tour : Tour} {tours : List Tour}
    (idle : tour.failed = none) (done : tour.ahead = []) :
    concluded ⟨hub, [], tour :: tours⟩ = some tour.report := by
  simp only [concluded, idle, done]

theorem concluded_of_due {hub : Hub} {tour : Tour} {tours : List Tour}
    {entry : ClientId × ChannelId} {ahead : Roster} (due : tour.ahead = entry :: ahead) :
    concluded ⟨hub, [], tour :: tours⟩ = none := by
  cases failed : tour.failed <;> simp only [concluded, failed, due]

theorem concluded_of_failed {hub : Hub} {tour : Tour} {tours : List Tour}
    {entry : ClientId × ChannelId} (failed : tour.failed = some entry) :
    concluded ⟨hub, [], tour :: tours⟩ = none := by
  simp only [concluded, failed]

theorem Next.reportsIn_eq {moment next : Moment} (move : Next moment next) :
    reportsIn next.hub.history = reportsIn moment.hub.history ++ moment.concluded.toList := by
  cases move with
  | act plain =>
      rw [(run_beside plain _).reportsIn_eq]
      exact (List.append_nil _).symm
  | read | begin => simp [concluded]
  | reach _ due | miss _ due => simp [concluded_of_due due]
  | remove failed => simp [concluded_of_failed failed]
  | finish idle done => simp [concluded_of_done idle done]

theorem Passes.reportsIn_eq {first moment : Moment} {passed : List Moment}
    (passes : Passes first passed moment) :
    reportsIn moment.hub.history =
      reportsIn first.hub.history ++ passed.filterMap concluded := by
  induction passes with
  | here => simp
  | @move passed moment next _ move ih =>
      rw [move.reportsIn_eq, ih, List.append_assoc, filterMap_concat]

/-- The reports in the answers of a run are those of the broadcasts that its moves bring to
an end. -/
theorem Passes.perm_reportsOfAnswers {steps : List Step} {passed : List Moment}
    (passes : Passes (start .fresh steps) passed (finished (Step.runAll steps .fresh).1)) :
    (reportsOfAnswers (Step.runAll steps .fresh).2).Perm (passed.filterMap concluded) := by
  have history : reportsIn (Step.runAll steps .fresh).1.history = passed.filterMap concluded :=
    passes.reportsIn_eq
  have told := runAll_tells steps .fresh
  rw [Tells, List.append_nil, history] at told
  exact told.symm

end Moment

end PipeCast.Hub
