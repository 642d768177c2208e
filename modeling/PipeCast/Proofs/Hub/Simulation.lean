import PipeCast.Proofs.Hub.Moment
import PipeCast.Proofs.Reader.Sessions

/-!
# Runs are made of moves

Running steps comes to the same as taking moves until none is left. So a law of
every moment that moves can reach is a law of every run, and of everything in the
middle of it.
-/

set_option autoImplicit false

namespace PipeCast.Hub

/-! ## One turn -/

namespace Progress

variable {Notes : Type} (interlude : Interlude Notes) (number : Nat) (text : String)

theorem visit_of_live {progress : Progress Notes} {entry : ClientId × ChannelId}
    (live : progress.hub.isLive entry.2 = true) :
    progress.visit interlude number text entry =
      { progress with
        hub := (progress.hub.deliver (.broadcast number entry.1) entry.2 text).1 } := by
  have succeeds := deliver_snd progress.hub entry.2 (.broadcast number entry.1) text
  rw [live] at succeeds
  cases delivered : progress.hub.deliver (.broadcast number entry.1) entry.2 text with
  | mk hub succeeded =>
      rw [delivered] at succeeds
      cases succeeds
      simp only [visit, delivered]

theorem visit_of_dead {progress : Progress Notes} {entry : ClientId × ChannelId}
    (dead : progress.hub.isLive entry.2 = false) :
    progress.visit interlude number text entry =
      let cause := Cause.broadcast number entry.1
      let failed := (progress.hub.deliver cause entry.2 text).1
      let elsewhere := interlude progress.gone.length failed progress.notes
      let settled := elsewhere.1.withdraw cause entry.1 entry.2
      ⟨settled.1, entry.1 :: progress.gone, progress.dropped + settled.2.toNat, elsewhere.2⟩ := by
  have fails := deliver_snd progress.hub entry.2 (.broadcast number entry.1) text
  rw [dead] at fails
  cases delivered : progress.hub.deliver (.broadcast number entry.1) entry.2 text with
  | mk hub succeeded =>
      rw [delivered] at fails
      cases fails
      simp only [visit, delivered]

end Progress

namespace Moment

/-! ## Broadcasts -/

/-- What an interlude does is what the moves of some scripts do, as long as its notes
have the right form. -/
def Plays {Notes : Type} (interlude : Interlude Notes) (scripts : List (Nat × List Step))
    (fits : Notes → Prop) : Prop :=
  ∀ (failure : Nat) (hub : Hub) (notes : Notes) (tours : List Tour), fits notes →
    Reaches ⟨hub, scriptFor failure scripts, tours⟩
        ⟨(interlude failure hub notes).1, [], tours⟩ ∧
      fits (interlude failure hub notes).2

theorem plays_none : Plays .none [] fun _ => True :=
  fun _ _ _ _ _ => ⟨.refl, trivial⟩

section

variable {Notes : Type} {interlude : Interlude Notes} {scripts : List (Nat × List Step)}
  {fits : Notes → Prop}

theorem turns_reach (plays : Plays interlude scripts fits) (number : Nat) (message : Message)
    (later : List Step) (tours : List Tour) (visited ahead : Roster)
    (progress : Progress Notes) (fit : fits progress.notes) :
    let final := ahead.foldl (Progress.visit interlude number message.text) progress
    Reaches
      ⟨progress.hub, [],
        ⟨number, message, scripts, visited, ahead, progress.gone, progress.dropped, none,
          later⟩ :: tours⟩
      ⟨final.hub, [],
        ⟨number, message, scripts, visited ++ ahead, [], final.gone, final.dropped, none,
          later⟩ :: tours⟩ := by
  -- The tour waits beneath whatever its interlude does and is found as it was left.
  induction ahead generalizing visited progress with
  | nil =>
      rw [List.append_nil]
      exact .refl
  | cons entry ahead ih =>
      rw [List.append_cons]
      cases reached : progress.hub.isLive entry.2 with
      | true =>
          have rest := ih (visited ++ [entry]) (progress.visit interlude number message.text entry)
          rw [Progress.visit_of_live interlude number message.text reached] at rest
          simp only [List.foldl_cons,
            Progress.visit_of_live interlude number message.text reached]
          exact .head (.reach rfl rfl reached) (rest fit)
      | false =>
          have rest := ih (visited ++ [entry]) (progress.visit interlude number message.text entry)
          rw [Progress.visit_of_dead interlude number message.text reached] at rest
          simp only [List.foldl_cons,
            Progress.visit_of_dead interlude number message.text reached]
          obtain ⟨between, fitAfter⟩ := plays progress.gone.length
            (progress.hub.deliver (.broadcast number entry.1) entry.2 message.text).1
            progress.notes
            (⟨number, message, scripts, visited ++ [entry], ahead, progress.gone,
              progress.dropped, some entry, later⟩ :: tours) fit
          refine .head (.miss rfl rfl reached) (between.trans ?_)
          exact .head (.remove rfl) (rest fitAfter)

theorem broadcastWith_reaches (plays : Plays interlude scripts fits) (hub : Hub)
    (message : Message) (notes : Notes) (fit : fits notes) (todo : List Step)
    (tours : List Tour) :
    Reaches ⟨hub, .broadcast message scripts :: todo, tours⟩
      ⟨(hub.broadcastWith interlude message notes).1, todo, tours⟩ := by
  have turns := turns_reach plays hub.begun message todo tours [] hub.registry.roster
    ⟨hub.begin message, [], 0, notes⟩ fit
  rw [List.nil_append] at turns
  have ended := Relation.ReflTransGen.tail turns (.finish rfl rfl)
  simp only [Tour.report, Tour.roster, List.append_nil] at ended
  exact .head .begin ended

end

theorem forwardAll_reaches (hub : Hub) (lines : List String) (todo : List Step)
    (tours : List Tour) :
    Reaches
      ⟨hub, (lines.map fun line => .broadcast (.line line) []) ++ todo, tours⟩
      ⟨(Reader.forwardAll hub lines).1, todo, tours⟩ := by
  induction lines generalizing hub with
  | nil => exact .refl
  | cons line rest ih =>
      exact (broadcastWith_reaches plays_none hub (.line line) () trivial _ tours).trans (ih _)

theorem round_reaches (hub : Hub) (opening : Reader.Opening) (todo : List Step)
    (tours : List Tour) :
    Reaches ⟨hub, .readPipe opening :: todo, tours⟩
      ⟨(Reader.round hub opening).1, todo, tours⟩ := by
  refine .head .read ?_
  cases opening with
  | failed error => exact .refl
  | opened source =>
      rw [Reader.round_opened]
      exact forwardAll_reaches hub _ todo tours

/-! ## Scripts -/

theorem playScripts_cons (number failure : Nat) (script : Script)
    (rest : List (Nat × Script)) (note : Option (List (Reply × Nat)))
    (notes : List (Option (List (Reply × Nat)))) (hub : Hub) :
    playScripts ((number, script) :: rest) failure hub (note :: notes) =
      if number = failure then
        let played := playScripts rest failure (script hub).1 notes
        (played.1, some (script hub).2 :: played.2)
      else
        let played := playScripts rest failure hub notes
        (played.1, note :: played.2) := by
  rfl

theorem scriptFor_cons (number failure : Nat) (steps : List Step)
    (rest : List (Nat × List Step)) :
    scriptFor failure ((number, steps) :: rest) =
      (if number = failure then steps else []) ++ scriptFor failure rest := by
  by_cases due : number = failure <;> simp [scriptFor, due]

theorem length_playScripts (scripts : List (Nat × Script)) (failure : Nat) (hub : Hub)
    (notes : List (Option (List (Reply × Nat)))) (fit : notes.length = scripts.length) :
    (playScripts scripts failure hub notes).2.length = notes.length := by
  induction scripts generalizing hub notes with
  | nil =>
      rw [List.length_eq_zero_iff.mp fit]
      rfl
  | cons script rest ih =>
      cases notes with
      | nil => simp at fit
      | cons note notes =>
          have fitRest : notes.length = rest.length := Nat.succ.inj fit
          rw [playScripts_cons]
          split
          · exact congrArg Nat.succ (ih _ notes fitRest)
          · exact congrArg Nat.succ (ih hub notes fitRest)

theorem length_prepare (scripts : List (Nat × List Step)) :
    (Step.prepare scripts).length = scripts.length := by
  induction scripts with
  | nil => rfl
  | cons script rest ih => rw [Step.prepare, List.length_cons, ih, List.length_cons]

theorem plays_of_reaches {scripts : List (Nat × List Step)}
    (reaches : ∀ failure hub notes, notes.length = scripts.length → ∀ tours,
      Reaches ⟨hub, scriptFor failure scripts, tours⟩
        ⟨(playScripts (Step.prepare scripts) failure hub notes).1, [], tours⟩) :
    Plays (playScripts (Step.prepare scripts)) scripts
      fun notes => notes.length = scripts.length := by
  intro failure hub notes tours fit
  have fitReady := fit.trans (length_prepare scripts).symm
  exact ⟨reaches failure hub notes fit tours,
    (length_playScripts _ failure hub notes fitReady).trans fit⟩

theorem length_unplayed (scripts : List (Nat × List Step)) :
    ((Step.prepare scripts).map fun _ => (none : Option (List (Reply × Nat)))).length =
      scripts.length := by
  rw [List.length_map, length_prepare]

-- The steps of a script are part of the broadcast that carries it, so the three laws
-- are proved together by recursion on the steps.
mutual

theorem run_reaches (step : Step) (hub : Hub) (todo : List Step) (tours : List Tour) :
    Reaches ⟨hub, step :: todo, tours⟩ ⟨(step.run hub).1, todo, tours⟩ := by
  cases step with
  | broadcast message scripts =>
      have plays := plays_of_reaches (playScripts_reaches scripts)
      simp only [Step.run]
      exact broadcastWith_reaches plays hub message _ (length_unplayed scripts) todo tours
  | readPipe opening =>
      simp only [Step.run]
      exact round_reaches hub opening todo tours
  | _ => exact .single (.act rfl)

theorem runAll_reaches (steps : List Step) (hub : Hub) (todo : List Step)
    (tours : List Tour) :
    Reaches ⟨hub, steps ++ todo, tours⟩ ⟨(Step.runAll steps hub).1, todo, tours⟩ := by
  cases steps with
  | nil => exact .refl
  | cons step rest =>
      simp only [Step.runAll]
      exact (run_reaches step hub _ tours).trans (runAll_reaches rest _ todo tours)

theorem playScripts_reaches (scripts : List (Nat × List Step)) (failure : Nat) (hub : Hub)
    (notes : List (Option (List (Reply × Nat)))) (fit : notes.length = scripts.length)
    (tours : List Tour) :
    Reaches ⟨hub, scriptFor failure scripts, tours⟩
      ⟨(playScripts (Step.prepare scripts) failure hub notes).1, [], tours⟩ := by
  match scripts, notes, fit with
  | [], [], _ => exact .refl
  | (number, steps) :: rest, note :: notes, fit =>
      have fitRest : notes.length = rest.length := Nat.succ.inj fit
      rw [scriptFor_cons, Step.prepare, playScripts_cons]
      by_cases due : number = failure
      · simp only [due, if_true]
        exact (runAll_reaches steps hub _ tours).trans
          (playScripts_reaches rest failure _ notes fitRest tours)
      · simp only [due, if_false]
        exact playScripts_reaches rest failure hub notes fitRest tours

end

theorem plays_scripts (scripts : List (Nat × List Step)) :
    Plays (playScripts (Step.prepare scripts)) scripts
      fun notes => notes.length = scripts.length :=
  plays_of_reaches (playScripts_reaches scripts)

/-! ## Runs from a fresh hub -/

/-- The end of a run is one of its moments. -/
theorem occursIn_runAll (steps : List Step) :
    (finished (Step.runAll steps .fresh).1).OccursIn steps := by
  have run := runAll_reaches steps .fresh [] []
  rwa [List.append_nil] at run

/-- Every moment of a run lies on the way to its end. -/
theorem OccursIn.reaches_finished {moment : Moment} {steps : List Step}
    (occurs : moment.OccursIn steps) :
    Reaches moment (finished (Step.runAll steps .fresh).1) :=
  Reaches.to_finished occurs (occursIn_runAll steps)

end Moment

end PipeCast.Hub
