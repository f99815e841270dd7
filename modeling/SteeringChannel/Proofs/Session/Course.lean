import SteeringChannel.Proofs.Session.Silence

/-!
A session seen from one of its servers. Every step takes the server through a run, at whose end it
has settled again; so whatever holds at the end of all runs holds at the end of all sessions. The
run starts no other tasks than the session does.
-/

namespace SteeringChannel.Session

variable {σ : Type} [Outlet σ] {session other : Session σ} {index : Nat} {first : Server σ}
  {starts : Server σ → Waiter → Prop}

def Runs (session : Session σ) (index : Nat) (starts : Server σ → Waiter → Prop)
    (first : Server σ) : Prop :=
  session.Has index fun server =>
    (∃ moves, Server.Run starts first moves server) ∧ server.Settled

def Step.keepsTo (starts : Server σ → Waiter → Prop) (session : Session σ) (index task : Nat) :
    Step → Prop
  | .start here duty =>
      here = index → ∀ server, session.server? index = some server → starts server ⟨task, duty⟩
  | _ => True

omit [Outlet σ] in
theorem Step.keepsTo.cleared {task : Nat} {request : Step}
    (keeps : request.keepsTo starts session index task) :
    request.keepsTo starts { session with records := [], finished := [] } index task := by
  cases request <;> exact keeps

def keepsTo (session : Session σ) (starts : Server σ → Waiter → Prop) (index task : Nat) :
    List Step → Prop
  | [] => True
  | request :: rest =>
      request.keepsTo starts session index task ∧
        (session.step task request).1.keepsTo starts index (task + 1) rest

theorem keepsTo_anybody (session : Session σ) (index task : Nat) (requests : List Step) :
    session.keepsTo Server.anybody index task requests := by
  induction requests generalizing session task with
  | nil => trivial
  | cons request rest ih =>
      refine ⟨?_, ih _ _⟩
      cases request <;> first | trivial | exact fun _ _ _ => trivial

theorem Runs.same (runs : session.Runs index starts first)
    (servers : other.servers = session.servers) : other.Runs index starts first :=
  Has.same runs servers

section Changes

variable (coherent : first.Coherent)
include coherent

theorem Runs.onServer {changed : Nat} {change : Server σ → Server σ}
    (runs : session.Runs index starts first)
    (goes : changed = index → ∀ server : Server σ, session.server? index = some server →
      server.Coherent → server.Settled →
      ∃ moves, Server.Run starts server moves (change server) ∧ (change server).Settled) :
    (session.onServer changed change).Runs index starts first := by
  refine Has.onServer runs ?_ fun _ _ keeps => keeps
  rintro same server found ⟨⟨moves, run⟩, settled⟩
  obtain ⟨more, changes, after⟩ := goes same server found (run.coherent coherent) settled
  have reported : Server.Run starts (change server) [.report] (change server).reported :=
    Server.Run.one .report trivial
  exact ⟨⟨_, (run.trans changes).trans reported⟩, after.reported⟩

theorem Runs.silent (runs : session.Runs index starts first) (task : Nat) {request : Step}
    (silent : request.isSilent index) : (session.perform task request).1.Runs index starts first := by
  obtain ⟨server, found, ⟨moves, run⟩, settled⟩ := runs
  have holds : session.Holds index server Server.Settled :=
    ⟨server, found, Server.Reaches.refl server, settled⟩
  obtain ⟨next, there, reaches, after⟩ := holds.perform (run.coherent coherent) task silent
  obtain ⟨more, rest, _⟩ := reaches.run starts
  exact ⟨next, there, ⟨moves ++ more, run.trans rest⟩, after⟩

theorem Runs.deliver (runs : session.Runs index starts first) (peer : Peer) (bytes : List UInt8) :
    (session.deliver peer bytes).Runs index starts first := by
  cases peer with
  | unattended => exact runs
  | server changed id =>
      refine runs.onServer coherent fun _ server _ coherent settled => ?_
      have after := settled.deliver coherent session.now id bytes
      unfold Server.deliver at after ⊢
      split
      next opened =>
        have received : Server.Run starts server [.receive id bytes] (server.receive id bytes) :=
          Server.Run.one (.receive id bytes) trivial
        obtain ⟨reads, reading, _⟩ :=
          (Server.reaches_readIfHandled (server.receive id bytes) session.now id).run starts
        obtain ⟨settles, settling, _⟩ := (Server.reaches_settle
          ((server.receive id bytes).readIfHandled session.now id) session.now).run starts
        rw [if_pos opened] at after
        exact ⟨_, (received.trans reading).trans settling, after⟩
      next => exact ⟨[], Server.Run.still, settled⟩

theorem Runs.startTask (runs : session.Runs index starts first) {changed task : Nat} {duty : Duty}
    (allowed : (Step.start changed duty).keepsTo starts session index task) :
    (session.onServer changed fun server => server.startTask session.now task duty).Runs index
      starts first := by
  refine runs.onServer coherent fun same server found coherent settled => ?_
  have started : Server.Run starts server [.await ⟨task, duty⟩] (server.await ⟨task, duty⟩) :=
    Server.Run.one (.await ⟨task, duty⟩) (allowed same server found)
  obtain ⟨settles, settling, _⟩ :=
    (Server.reaches_settle (server.await ⟨task, duty⟩) session.now).run starts
  exact ⟨_, started.trans settling, settled.startTask coherent session.now task duty⟩

theorem Runs.arrive (runs : session.Runs index starts first) (changed : Nat) {arrival : Connection}
    (untaken : arrival.taken = []) (fresh : arrival.closes = 0) :
    (session.onServer changed fun server => server.arrive session.now arrival).Runs index starts
      first := by
  refine runs.onServer coherent fun _ server _ coherent settled => ?_
  have registered : Server.Run starts server [.arrive arrival] (server.register arrival) :=
    Server.Run.one (.arrive arrival) ⟨untaken, fresh⟩
  obtain ⟨settles, settling, _⟩ := (server.reaches_arrive session.now arrival).run starts
  exact ⟨_, registered.trans settling, settled.arrive coherent session.now untaken fresh⟩

theorem Runs.transmit (runs : session.Runs index starts first) (name : String) (client : Client)
    (link : Link) (command : Command) :
    (session.transmit name client link command).1.Runs index starts first := by
  have servers : ((Client.ambiguityRecord? command).toList.foldl note session).servers =
      session.servers := servers_foldl_note _ session
  simp only [Session.transmit]
  split
  · exact runs.same servers
  · split
    · exact (runs.same servers).deliver coherent link.peer _
    · exact runs.same servers

theorem Runs.send (runs : session.Runs index starts first) (name : String) (command : Command) :
    (session.send name command).1.Runs index starts first := by
  have named : (session.setClient name (session.client name defaultPath)).Runs index starts
      first := runs.same rfl
  simp only [Session.send]
  split
  · split
    · exact named
    · exact named.transmit coherent name _ _ command
  · exact named

theorem Runs.sendValue (runs : session.Runs index starts first) (name : String) (value : Int) :
    (session.sendValue name value).1.Runs index starts first := by
  simp only [Session.sendValue]
  split
  · exact runs
  · exact runs.send coherent name _

theorem Runs.sendText (runs : session.Runs index starts first) (name text : String) :
    (session.sendText name text).1.Runs index starts first := by
  simp only [Session.sendText]
  split
  · exact runs
  · exact runs.sendValue coherent name _

end Changes

theorem Runs.perform (runs : session.Runs index starts first) (coherent : first.Coherent)
    (task : Nat) {request : Step} (allowed : request.keepsTo starts session index task) :
    (session.perform task request).1.Runs index starts first := by
  cases request with
  | start changed duty => exact runs.startTask coherent allowed
  | inject changed bytes ending closeFails => exact runs.arrive coherent changed rfl rfl
  | send name command => exact runs.send coherent name command
  | sendValue name value => exact runs.sendValue coherent name value
  | sendText name text => exact runs.sendText coherent name text
  | writeWire name bytes =>
      simp only [Session.perform, Session.onWire]
      split
      · simp only [Session.writeWire]
        split
        · exact runs.deliver coherent _ bytes
        · exact runs
      · exact runs
  | _ => exact runs.silent coherent task trivial

theorem Runs.run (runs : session.Runs index starts first) (coherent : first.Coherent) (task : Nat)
    {requests : List Step} (allowed : session.keepsTo starts index task requests) :
    (session.run task requests).1.Runs index starts first := by
  induction requests generalizing session task with
  | nil => exact runs
  | cons request rest ih =>
      obtain ⟨now, later⟩ := allowed
      have cleared : Runs { session with records := [], finished := [] } index starts first :=
        runs.same rfl
      exact ih (cleared.perform coherent task now.cleared) (task + 1) later

theorem run_of_fresh (fresh : first.Fresh) (found : session.server? index = some first) (task : Nat)
    {requests : List Step} (allowed : session.keepsTo starts index task requests) :
    ∃ moves server, (session.run task requests).1.server? index = some server ∧
      Server.Run starts first moves server ∧ server.Settled := by
  have runs : session.Runs index starts first :=
    ⟨first, found, ⟨[], Server.Run.still⟩, fresh.settled⟩
  obtain ⟨server, there, ⟨moves, run⟩, settled⟩ := runs.run fresh.coherent task allowed
  exact ⟨moves, server, there, run, settled⟩

end SteeringChannel.Session
