import SteeringChannel.Daemon

/-!
Steps in the life of a daemon, and what each one reports. A daemon that is over no longer reacts
to signals, but its surroundings go on.
-/

namespace SteeringChannel.Daemon

inductive Step where
  | signal (count : Nat)
  | isThere (path : String)
  | session (request : Session.Step)
  | device (happening : Relay.Happening)
  deriving Repr

inductive Answer where
  | up
  | nothing
  | unhandled
  | forced
  | there (answer : Bool)
  | session (result : Session.Result)
  deriving Repr

structure Report where
  answer : Answer
  phase : Phase
  written : List UInt8
  calls : List Relay.Call
  records : List Journal.Record
  deriving Repr

/-- Signals count as long as the daemon serves. Of two in a row the second one forces the end. -/
def signal (daemon : Daemon) (count : Nat) : Daemon × Answer :=
  if daemon.phase = .serving then
    match count with
    | 0 => (daemon, .nothing)
    | 1 => (daemon.shutDown, .nothing)
    | _ => (daemon.force, .forced)
  else (daemon, .unhandled)

def perform (daemon : Daemon) : Step → Daemon × Answer
  | .signal count => daemon.signal count
  | .isThere path =>
      (daemon, .there (!Path.hasNul path && daemon.session.tree.isThere path))
  | .session request =>
      let (session, result) := daemon.session.perform (serveTask + 1) request
      ({ daemon with session := session }, .session result)
  | .device happening => (daemon.changeRelay fun relay => relay.undergo happening, .nothing)

def report (daemon : Daemon) (earlier : Relay.Trace) (answer : Answer) : Report :=
  let trace := daemon.trace.since earlier
  { answer := answer
    phase := daemon.phase
    written := trace.written
    calls := trace.calls
    records := daemon.session.records ++ trace.records }

def step (daemon : Daemon) (request : Step) : Daemon × Report :=
  let quiet := { daemon with session := { daemon.session with records := [], finished := [] } }
  let (next, answer) := quiet.perform request
  (next, next.report daemon.trace answer)

def run (daemon : Daemon) : List Step → Daemon × List Report
  | [] => (daemon, [])
  | request :: rest =>
      let (next, report) := daemon.step request
      if next.phase = .forced then (next, [report])
      else
        let (last, reports) := next.run rest
        (last, report :: reports)

def live (session : Session Relay) (denied : List String) (settings : Settings)
    (device : Relay.Device) (steps : List Step) : Daemon × List Report :=
  let daemon := start session denied settings device
  let (last, reports) := daemon.run steps
  (last, daemon.report {} .up :: reports)

end SteeringChannel.Daemon
