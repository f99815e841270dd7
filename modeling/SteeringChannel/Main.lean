import SteeringChannel.Daemon.Step
import SteeringChannel.Program

/-!
The program. Its sockets live in memory, so standard input stands for the one client a daemon has:
the bytes are commands, and the end of the input is the signal to shut down.
-/

namespace SteeringChannel.Program

def variableNames : List String :=
  Settings.Field.all.map fun field => (Settings.Field.variableName field).toUpper

def environment : IO Environment := do
  let found ← variableNames.mapM fun name => do
    let value ← IO.getEnv name
    pure (value.map fun value => (name, value))
  pure (found.filterMap id)

def envFile : IO (Option (List UInt8)) := do
  let home := (← IO.getEnv "HOME").getD ""
  try
    let bytes ← IO.FS.readBinFile (home ++ "/.config/swi-control/env")
    pure (some bytes.toList)
  catch _ => pure none

def clientName : String := "input"

def reportStep (plan : Plan) (daemon : Daemon) (request : Daemon.Step) : IO Daemon := do
  let (next, report) := daemon.step request
  IO.eprint (plan.consoleText report.records)
  pure next

partial def feed (plan : Plan) (daemon : Daemon) (input : IO.FS.Stream) : IO Daemon := do
  let bytes ← input.read 4096
  if bytes.isEmpty then pure daemon
  else
    let next ← reportStep plan daemon (.session (.writeWire clientName bytes.toList))
    feed plan next input

def exitStatus : Daemon.Phase → UInt32
  | .ended status => UInt32.ofNat status
  | _ => 1

def runDaemon (plan : Plan) : IO UInt32 := do
  let started := Daemon.start { tree := plan.journal.tree } [] plan.settings {}
  IO.eprint (plan.consoleText started.session.records)
  let served ←
    if started.phase = .serving then do
      let connected ← reportStep plan started
        (.session (.openWire clientName plan.settings.socketPath))
      let fed ← feed plan connected (← IO.getStdin)
      reportStep plan fed (.signal 1)
    else pure started
  match served.phase with
  | .failed failure => IO.eprintln failure.message
  | _ => pure ()
  pure (exitStatus served.phase)

def runErrand (plan : Plan) (errand : Errand) : IO UInt32 := do
  let session : Session Relay := { tree := plan.journal.tree }
  let (ended, result) := errand.run session plan.settings.socketPath
  IO.eprint (plan.consoleText ended.records)
  match result with
  | .error error =>
      IO.eprintln error.message
      pure 1
  | .ok result =>
      IO.print result.output
      IO.eprint result.errors
      pure (UInt32.ofNat result.status)

def faultLine (fault : Settings.FieldFault) : String := fault.name ++ ": " ++ fault.fault.message

def runHalt : Halt → IO UInt32
  | .usage refusal => do
      IO.print refusal.output
      IO.eprint refusal.errors
      pure (UInt32.ofNat refusal.status)
  | .envFile failure => do
      IO.eprintln failure.message
      pure 1
  | .settings faults => do
      faults.forM fun fault => IO.eprintln (faultLine fault)
      pure 1
  | .journal error => do
      IO.eprintln error.message
      pure 1

end SteeringChannel.Program

open SteeringChannel in
def main (arguments : List String) : IO UInt32 := do
  let environment ← Program.environment
  let file ← Program.envFile
  let terminal ← (← IO.getStderr).isTty
  match Plan.make environment file arguments Filesystem.empty terminal with
  | .error halt => Program.runHalt halt
  | .ok plan =>
      match plan.task with
      | .daemon => Program.runDaemon plan
      | .errand errand => Program.runErrand plan errand
