/-
# The program

Reads the command line, runs what it asks for over the file system, and prints. A command
line that cannot be understood ends with status 2, a failed command with status 1.
-/

import ControlPlane.Command.Help
import ControlPlane.Command.Line
import ControlPlane.Command.Run

namespace ControlPlane

/-- What stands at a path of the file system. -/
def lookAtFile (path : String) : IO PathState := do
  try
    return .readable (← IO.FS.readFile path)
  catch error =>
    match error with
    | .noFileOrDirectory .. => return .absent
    | _ => return .unreadable

/-- Keep the service going, dropping expired data at intervals. -/
partial def serve (service : Service) : IO Unit := do
  IO.sleep (UInt32.ofNat (min service.config.cache.sweepInterval.millis.toNat 0x80000000))
  serve (service.sweep ⟨UInt64.ofNat (← IO.monoMsNow)⟩)

def runInvocation (invocation : Invocation) : IO UInt32 := do
  match ← invocation.run lookAtFile with
  | .printed text =>
      IO.print text
      return 0
  | .failed report =>
      IO.eprintln report.render
      return 1
  | .serving service =>
      serve service
      return 0

end ControlPlane

open ControlPlane in
def main (arguments : List String) : IO UInt32 := do
  match Request.ofLine arguments with
  | .ok (.run invocation) => runInvocation invocation
  | .ok .version =>
      IO.print versionText
      return 0
  | .ok (.help place) =>
      IO.print place.help
      return 0
  | .error error =>
      IO.eprintln ("error: " ++ error.message)
      return 2
