import PipeCast.Startup.Log
import PipeCast.Startup.Settings

/-!
# The command

What the command does from its environment to its exit code: it adds the settings
file of its directory to the environment, reads its filter and its configuration
from there, and starts a bridge. A bridge that starts serves until it is told to
stop.
-/

set_option autoImplicit false

namespace PipeCast

open Text

namespace Command

def filterVariable : String := "RUST_LOG"

/-- The variable that holds how many threads share the work. It counts as it is when the
command begins, before the settings file is read. -/
def threadsVariable : String := "TOKIO_WORKER_THREADS"

/-- The most threads for which there could be room. -/
def threadLimit : Nat := Nat.pow 2 60 - 1

/-- Why the command breaks off before it starts a bridge. -/
inductive Abort where
  /-- The number of threads is no numeral, is zero, or is beyond all room. -/
  | threads
  /-- A variable of the settings file cannot be set. -/
  | settings
  /-- A directive of the filter is divided inside a character. -/
  | filter
  deriving DecidableEq, Repr

structure Preparation where
  filter : Log.Filter
  config : Config

structure Outcome where
  exitCode : Nat
  /-- Whether the bridge served and was told to stop. -/
  served : Bool
  log : List String

/-- Whether the number of threads can be had, if one is given. -/
def hasThreads (given : Environment) : Bool :=
  (given.value? threadsVariable).all fun value =>
    ((Utf8.decodeStrict? value).bind (Numeral.read? threadLimit)).any (0 < ·)

/-- Makes ready what a start needs, in the order in which it is needed. -/
def prepare (files : Files) (given : Environment) : Except Abort Preparation := do
  if !hasThreads given then throw .threads
  let environment ← (Settings.addFrom? given files).elim (.error .settings) .ok
  let filter ←
    (Log.Filter.ofSetting? (environment.text? filterVariable)).elim (.error .filter) .ok
  return ⟨filter, Config.readBytes environment.value?⟩

/-- What is logged when a start has come to its end. -/
def ending (launch : Launch) : Launch.Entry :=
  match launch.result with
  | .ok _ => .shuttingDown
  | .error failure => .stopped failure

def exitCode (launch : Launch) : Nat :=
  match launch.result with
  | .ok _ => 0
  | .error _ => 1

def abortedExitCode : Nat := 101

/-- What the command came to, if it broke off or made a start. -/
def outcome : Except Abort (Preparation × Launch) → Outcome
  | .error _ => ⟨abortedExitCode, false, []⟩
  | .ok (prepared, launch) =>
      { exitCode := exitCode launch
        served := launch.result.toBool
        log := Log.lines prepared.filter (launch.entries ++ [ending launch]) }

/-- Makes a start, if everything for it can be had. -/
def start (host : Host) (given : Environment) : Except Abort (Preparation × Launch) :=
  (prepare host.files given).map fun prepared => (prepared, launch host prepared.config)

/-- Runs the command until it breaks off, fails or is told to stop. -/
def run (host : Host) (given : Environment) : Outcome := outcome (start host given)

end Command

end PipeCast
