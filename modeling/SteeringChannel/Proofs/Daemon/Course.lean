import SteeringChannel.Proofs.Daemon
import SteeringChannel.Proofs.Relay.Calls
import SteeringChannel.Proofs.Session.Lodging
import SteeringChannel.Proofs.Session.Probe

/-!
A daemon that serves, beside a session in which its server has no relay. Clients do the same in
both, and what the relay and its device do is not seen in the other.
-/

namespace SteeringChannel

namespace Server

variable {σ : Type} [Outlet σ] {alike after : Option σ → Option σ → Prop} {number : Nat → Nat}
  {probes : List Nat} {server other : Server σ}

def refit (server : Server σ) (outlet : Option σ) : Server σ :=
  { server with dispatcher := { server.dispatcher with outlet := outlet } }

omit [Outlet σ] in
theorem Steady.refit (steady : server.Steady) (outlet : Option σ) : (server.refit outlet).Steady :=
  ⟨{ steady.coherent with }, ⟨steady.settled.attentive.elsewhere (fun _ present => present)
    (fun _ _ awaits => awaits.elsewhere rfl rfl rfl rfl) rfl rfl, steady.settled.calm⟩⟩

theorem Twins.refit (twins : Twins alike number probes server other) {outlet : Option σ}
    (fits : after server.dispatcher.outlet outlet) :
    Twins after number probes server (other.refit outlet).reported :=
  ⟨{ twins.mirrors with outlet := fits }, twins.solo, twins.first,
    (twins.second.refit outlet).reported⟩

theorem Twins.startTask (twins : Twins alike number probes server other) (lasting : Lasting alike)
    (now : Rat) {task : Nat} (starts : server.alone ⟨task, .serve⟩) :
    Twins alike number probes (server.startTask now task .serve).reported
      (other.startTask now task .serve).reported := by
  have begins : other.alone ⟨task, .serve⟩ := by
    obtain ⟨serves, waiters, handlers⟩ := starts
    exact ⟨serves, twins.mirrors.waiters.trans waiters, by
      rw [twins.mirrors.handlers, handlers, List.map_nil]⟩
  have goes {server : Server σ} (starts : server.alone ⟨task, .serve⟩) (steady : server.Steady) :
      (∃ moves, Run alone server moves (server.startTask now task .serve)) ∧
        (server.startTask now task .serve).Settled := by
    have waits : Run alone server [.await ⟨task, .serve⟩] (server.await ⟨task, .serve⟩) :=
      Run.one (.await ⟨task, .serve⟩) starts
    obtain ⟨_, rest⟩ := (works_settle (server.await ⟨task, .serve⟩) now).alone
    exact ⟨⟨_, waits.trans rest⟩,
      steady.settled.startTask steady.coherent now task .serve⟩
  obtain ⟨⟨_, mine⟩, settled⟩ := goes starts twins.first
  obtain ⟨⟨_, theirs⟩, rests⟩ := goes begins twins.second
  exact ⟨(twins.mirrors.startTask twins.solo lasting starts).reported,
    (twins.solo.after mine).reported, (twins.first.after mine settled).reported,
    (twins.second.after theirs rests).reported⟩

end Server

namespace Daemon

variable {session bare rest : Session Relay} {denied : List String} {settings : Settings}
  {device : Relay.Device} {daemon : Daemon} {index : Nat} {grip : Option Relay.Grip}

def Beside (grip : Option Relay.Grip) (mine theirs : Option Relay) : Prop :=
  mine = none ∧ theirs.map Relay.grip = grip

theorem lasting_beside : Server.Lasting (Beside grip) := by
  rintro first second raw ⟨rfl, held⟩
  cases second with
  | none => exact ⟨rfl, held⟩
  | some relay =>
      exact ⟨rfl, (congrArg some (relay.grip_forward raw)).trans held⟩

structure Serves (grip : Option Relay.Grip) (index : Nat) (bare : Session Relay)
    (daemon : Daemon) : Prop where
  serving : daemon.phase = .serving
  own : daemon.index = index
  mirrors : Session.Mirrors (Beside grip) (fun id => id) [] index bare daemon.session

namespace Serves

variable (serves : Serves grip index bare daemon)
include serves

theorem relay : daemon.relay?.map Relay.grip = grip := by
  obtain ⟨_, later, _, there, twins, _⟩ := serves.mirrors.watched
  have found : daemon.server? = some later := by
    rw [server?, serves.own, there]
  rw [relay?, found, Option.bind_some]
  exact twins.mirrors.outlet.2

theorem note (records : List Journal.Record) : Serves grip index bare (daemon.note records) :=
  { serves with mirrors := serves.mirrors.noted records }

theorem quiet : Serves grip index bare
    { daemon with session := { daemon.session with records := [], finished := [] } } :=
  { serves with mirrors := { serves.mirrors with } }

theorem setRelay (relay : Relay) : Serves (some relay.grip) index bare (daemon.setRelay relay) := by
  have fitted : Session.Mirrors (Beside (some relay.grip)) (fun id => id) [] index bare
      (daemon.session.onServer index fun later => later.refit (some relay)) :=
    serves.mirrors.there fun _ _ _ twins => twins.refit ⟨twins.mirrors.outlet.1, rfl⟩
  have same : (daemon.setRelay relay).session =
      daemon.session.onServer index fun later => later.refit (some relay) := by
    rw [← serves.own]
    rfl
  exact { serves with mirrors := same ▸ fitted }

theorem changeRelay {change : Relay → Relay} (keeps : ∀ relay, (change relay).grip = relay.grip) :
    Serves grip index bare (daemon.changeRelay change) := by
  have held := serves.relay
  unfold Daemon.changeRelay
  split
  · exact serves
  next relay here =>
    rw [here] at held
    have changed := serves.setRelay (change relay)
    rw [keeps, show some relay.grip = grip from held] at changed
    exact changed.note _

end Serves

def Step.session? : Step → Option Session.Step
  | .session request => some request
  | _ => none

def Step.isTraffic : Step → Prop
  | .signal _ => False
  | .session request => request.isTraffic
  | _ => True

def follow (session : Session Relay) (requests : List Session.Step) : Session Relay :=
  requests.foldl (fun session request => (session.perform (serveTask + 1) request).1) session

theorem Serves.step (serves : Serves grip index bare daemon) {request : Step}
    (traffic : request.isTraffic) :
    Serves grip index (follow bare request.session?.toList) (daemon.step request).1 := by
  have quiet := serves.quiet
  cases request with
  | signal count => exact traffic.elim
  | isThere path => exact quiet
  | session request =>
      have still : ∀ duty, request ≠ .start index duty := by
        rintro duty rfl
        exact traffic
      exact { quiet with
        mirrors := (quiet.mirrors.perform lasting_beside (serveTask + 1) still).1 }
  | device happening => exact quiet.changeRelay fun relay => relay.grip_undergo happening

theorem Serves.run {steps : List Step} (traffic : ∀ step ∈ steps, step.isTraffic) :
    ∀ {bare : Session Relay} {daemon : Daemon}, Serves grip index bare daemon →
      ∃ last, Serves grip index (follow bare (steps.filterMap Step.session?)) last ∧
        ∀ more, (daemon.run (steps ++ more)).1 = (last.run more).1 := by
  induction steps with
  | nil => exact fun serves => ⟨_, serves, fun _ => rfl⟩
  | cons request rest ih =>
      intro bare daemon serves
      obtain ⟨here, later⟩ := List.forall_mem_cons.mp traffic
      have goes := serves.step here
      obtain ⟨last, served, same⟩ := ih later goes
      refine ⟨last, ?_, fun more => ?_⟩
      · cases request <;> exact served
      · have unforced : (daemon.step request).1.phase ≠ .forced := by simp [goes.serving]
        rw [← same more, List.cons_append, run_cons unforced]

end Daemon
end SteeringChannel
