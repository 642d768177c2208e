import Mathlib.Logic.Relation
import PipeCast.Proofs.Hub.Kept

/-!
# Moments of a run

A run of steps taken one move at a time. A moment holds the hub, the steps still
to do and the broadcasts under way, innermost first. A plain step is one move; a
broadcast is a move when it begins, one for each delivery, one for each removal
after a failure and one when it ends. The steps that run between a failure and its
removal are moves of their own.

The moves are those of the run itself: a run of steps takes them one after another
and nothing else, and every moment reached by moves lies on the way to the end of
the run.
-/

set_option autoImplicit false

namespace PipeCast.Hub

/-- The steps that run after a failure, which is counted from zero. -/
def scriptFor (failure : Nat) (scripts : List (Nat × List Step)) : List Step :=
  (scripts.filter fun script => script.1 = failure).flatMap (·.2)

/-- A broadcast under way. -/
structure Tour where
  number : Nat
  message : Message
  scripts : List (Nat × List Step)
  /-- The entries whose turn has come, in order. -/
  visited : Roster
  /-- The entries whose turn is still to come, in order. -/
  ahead : Roster
  /-- The numbers whose delivery failed and whose removal is over, latest first. -/
  gone : List ClientId
  dropped : Nat
  /-- The entry whose delivery failed and whose removal is still to come. -/
  failed : Option (ClientId × ChannelId)
  /-- The steps that follow the broadcast. -/
  later : List Step

namespace Tour

def start (hub : Hub) (message : Message) (scripts : List (Nat × List Step))
    (later : List Step) : Tour :=
  ⟨hub.begun, message, scripts, [], hub.registry.roster, [], 0, none, later⟩

/-- The roster that a broadcast started from. -/
def roster (tour : Tour) : Roster := tour.visited ++ tour.ahead

def cause (tour : Tour) (entry : ClientId × ChannelId) : Cause :=
  .broadcast tour.number entry.1

def advance (tour : Tour) (entry : ClientId × ChannelId) (ahead : Roster) : Tour :=
  { tour with visited := tour.visited ++ [entry], ahead := ahead }

def settle (tour : Tour) (entry : ClientId × ChannelId) (removed : Bool) : Tour :=
  { tour with
    gone := entry.1 :: tour.gone
    dropped := tour.dropped + removed.toNat
    failed := none }

def report (tour : Tour) : Report :=
  ⟨tour.message.source, tour.roster.length, tour.dropped, tour.gone.reverse⟩

theorem mem_roster (tour : Tour) {entry : ClientId × ChannelId} {ahead : Roster}
    (due : tour.ahead = entry :: ahead) : entry ∈ tour.roster := by
  rw [roster, due]
  exact List.mem_append_right _ List.mem_cons_self

theorem roster_advance (tour : Tour) {entry : ClientId × ChannelId} {ahead : Roster}
    (due : tour.ahead = entry :: ahead) : (tour.advance entry ahead).roster = tour.roster := by
  rw [roster, roster, due]
  exact (List.append_cons ..).symm

theorem turn_cases (tour : Tour) :
    (∃ entry, tour.failed = some entry) ∨ (tour.failed = none ∧ tour.ahead = []) ∨
      ∃ entry ahead, tour.failed = none ∧ tour.ahead = entry :: ahead := by
  cases failed : tour.failed with
  | some entry => exact .inl ⟨entry, rfl⟩
  | none =>
      cases turns : tour.ahead with
      | nil => exact .inr (.inl ⟨rfl, rfl⟩)
      | cons entry ahead => exact .inr (.inr ⟨entry, ahead, rfl, rfl⟩)

end Tour

/-- A moment of a run. -/
structure Moment where
  hub : Hub
  /-- The steps to do before the innermost broadcast goes on. -/
  todo : List Step
  /-- The broadcasts under way, innermost first. -/
  tours : List Tour

namespace Moment

/-- The move that a run makes next. -/
inductive Next : Moment → Moment → Prop where
  | act {hub : Hub} {step : Step} {todo : List Step} {tours : List Tour}
      (plain : step.isPlain = true) :
      Next ⟨hub, step :: todo, tours⟩ ⟨(step.run hub).1, todo, tours⟩
  /-- A round of the reader is one broadcast for each line. -/
  | read {hub : Hub} {opening : Reader.Opening} {todo : List Step} {tours : List Tour} :
      Next ⟨hub, .readPipe opening :: todo, tours⟩
        ⟨hub, (opening.lines.map fun line => .broadcast (.line line) []) ++ todo, tours⟩
  | begin {hub : Hub} {message : Message} {scripts : List (Nat × List Step)}
      {todo : List Step} {tours : List Tour} :
      Next ⟨hub, .broadcast message scripts :: todo, tours⟩
        ⟨hub.begin message, [], .start hub message scripts todo :: tours⟩
  | reach {hub : Hub} {tour : Tour} {entry : ClientId × ChannelId} {ahead : Roster}
      {tours : List Tour} (idle : tour.failed = none) (due : tour.ahead = entry :: ahead)
      (live : hub.isLive entry.2 = true) :
      Next ⟨hub, [], tour :: tours⟩
        ⟨(hub.deliver (tour.cause entry) entry.2 tour.message.text).1, [],
          tour.advance entry ahead :: tours⟩
  | miss {hub : Hub} {tour : Tour} {entry : ClientId × ChannelId} {ahead : Roster}
      {tours : List Tour} (idle : tour.failed = none) (due : tour.ahead = entry :: ahead)
      (dead : hub.isLive entry.2 = false) :
      Next ⟨hub, [], tour :: tours⟩
        ⟨(hub.deliver (tour.cause entry) entry.2 tour.message.text).1,
          scriptFor tour.gone.length tour.scripts,
          { tour.advance entry ahead with failed := some entry } :: tours⟩
  | remove {hub : Hub} {tour : Tour} {entry : ClientId × ChannelId} {tours : List Tour}
      (failed : tour.failed = some entry) :
      Next ⟨hub, [], tour :: tours⟩
        ⟨(hub.withdraw (tour.cause entry) entry.1 entry.2).1, [],
          tour.settle entry (hub.withdraw (tour.cause entry) entry.1 entry.2).2 :: tours⟩
  | finish {hub : Hub} {tour : Tour} {tours : List Tour}
      (idle : tour.failed = none) (done : tour.ahead = []) :
      Next ⟨hub, [], tour :: tours⟩
        ⟨hub.finish tour.number tour.report, tour.later, tours⟩

/-- Some moves lead from one moment to another. -/
abbrev Reaches : Moment → Moment → Prop := Relation.ReflTransGen Next

/-- A run of steps before its first move. -/
def start (hub : Hub) (steps : List Step) : Moment := ⟨hub, steps, []⟩

/-- A run after its last move. -/
def finished (hub : Hub) : Moment := ⟨hub, [], []⟩

/-- A moment of the run of the given steps from a fresh hub. -/
def OccursIn (moment : Moment) (steps : List Step) : Prop :=
  Reaches (start .fresh steps) moment

/-- What comes next is never a matter of choice. -/
theorem Next.deterministic {moment left right : Moment} (leftMove : Next moment left)
    (rightMove : Next moment right) : left = right := by
  cases leftMove with
  | act plain =>
      cases rightMove with
      | act => rfl
      | read | begin => simp [Step.isPlain] at plain
  | read =>
      cases rightMove with
      | act plain => simp [Step.isPlain] at plain
      | read => rfl
  | begin =>
      cases rightMove with
      | act plain => simp [Step.isPlain] at plain
      | begin => rfl
  | reach idle due live =>
      cases rightMove with
      | reach otherIdle otherDue =>
          cases due.symm.trans otherDue
          rfl
      | miss otherIdle otherDue dead =>
          cases due.symm.trans otherDue
          simp [live] at dead
      | remove failed => simp [idle] at failed
      | finish otherIdle done => simp [due] at done
  | miss idle due dead =>
      cases rightMove with
      | reach otherIdle otherDue live =>
          cases due.symm.trans otherDue
          simp [live] at dead
      | miss otherIdle otherDue =>
          cases due.symm.trans otherDue
          rfl
      | remove failed => simp [idle] at failed
      | finish otherIdle done => simp [due] at done
  | remove failed =>
      cases rightMove with
      | reach idle | miss idle | finish idle => simp [idle] at failed
      | remove otherFailed =>
          cases failed.symm.trans otherFailed
          rfl
  | finish idle done =>
      cases rightMove with
      | reach otherIdle due | miss otherIdle due => simp [done] at due
      | remove failed => simp [idle] at failed
      | finish => rfl

theorem Next.not_finished {hub : Hub} {next : Moment} : ¬ Next (finished hub) next := by
  intro move
  cases move

/-- Moves that lead to the end of a run pass every moment that moves can reach. -/
theorem Reaches.to_finished {first moment : Moment} {hub : Hub} (reaches : Reaches first moment)
    (ends : Reaches first (finished hub)) : Reaches moment (finished hub) := by
  induction reaches with
  | refl => exact ends
  | tail _ move ih =>
      rcases Relation.ReflTransGen.cases_head ih with same | ⟨other, otherMove, rest⟩
      · exact absurd (same ▸ move) Next.not_finished
      · exact move.deterministic otherMove ▸ rest

end Moment

end PipeCast.Hub
