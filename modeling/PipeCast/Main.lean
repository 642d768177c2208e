import PipeCast.Reader.Session
import PipeCast.Startup.Command

/-!
# The command on a console

The outer layer of the command. It reads the environment, the settings file and
what stands at the path of the pipe, and prints the log of the start. Standard
input is then one session of the pipe, and standard output is the one client.
-/

set_option autoImplicit false

namespace PipeCast.Console

def consulted : List String :=
  [Config.portVariable, Config.pathVariable, Config.retryVariable, Config.relayVariable,
    Command.filterVariable, Command.threadsVariable]

def environment : IO Environment := do
  let values ← consulted.mapM fun name => return (name, ← IO.getEnv name)
  let given := values.filterMap fun (name, value) =>
    value.map fun value => (name, Text.Utf8.bytesOf value)
  return (Environment.ofVariables? given).getD []

/-- The settings file of the working directory, as a file tree. -/
def settings : IO Files := do
  try
    let bytes ← IO.FS.readBinFile ".env"
    return (Files.scratch.writeFile Settings.fileName bytes.toList).toOption.getD Files.scratch
  catch _ => return Files.scratch

def observe (files : Files) (path : String) : IO Files := do
  let bytes := Text.Utf8.bytesOf path
  let changed : Except IoError Files ←
    try
      match (← ((← IO.currentDir) / path).metadata).type with
      | .dir => pure (files.makeDirectory bytes)
      | .file => pure (files.writeFile bytes [])
      | _ => pure (files.makePipe bytes Provision.pipeMode)
    catch _ => pure (.ok files)
  return changed.toOption.getD files

/-- Everything that can be read, as it arrives. -/
partial def readAll (input : IO.FS.Stream) (arrivals : List (List UInt8)) :
    IO (List (List UInt8)) := do
  let bytes ← input.read 65536
  if bytes.isEmpty then return arrivals.reverse else readAll input (bytes.toList :: arrivals)

/-- What one client gets from one session. -/
def forwarded (arrivals : List (List UInt8)) : List String :=
  let (hub, channel) := Hub.fresh.openChannel (.named "console")
  let (hub, id) := hub.issue
  let (hub, _) := Reader.round (hub.register id channel) (.opened ⟨arrivals, none⟩)
  (hub.drain channel).2.1

end PipeCast.Console

open PipeCast in
def main : IO UInt32 := do
  let given ← Console.environment
  let files ← Console.settings
  match Command.prepare files given with
  | .error _ => return Command.abortedExitCode.toUInt32
  | .ok prepared =>
      let files ← Console.observe files prepared.config.pipePath
      let launched := launch ⟨files, [], false⟩ prepared.config
      for line in Log.lines prepared.filter launched.entries do IO.println line
      if launched.result.toBool then
        for line in Console.forwarded (← Console.readAll (← IO.getStdin) []) do IO.println line
      for line in Log.lines prepared.filter [Command.ending launched] do IO.println line
      return (Command.exitCode launched).toUInt32
