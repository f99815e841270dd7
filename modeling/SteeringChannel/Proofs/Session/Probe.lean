import SteeringChannel.Proofs.Session.Accord
import SteeringChannel.Proofs.Session.Acknowledgement
import SteeringChannel.Proofs.Session.Listening

/-!
Probes in between the steps of a session. A server that one loop serves is done with a probe
before the next step, or lets it wait behind its clients, who see nothing of it.
-/

namespace SteeringChannel

theorem Filesystem.lookup_unfollowed {tree : Filesystem} {path : String} {goal : Place}
    {entry : Entry} (looked : tree.lookup true path = .ok (goal, entry)) :
    ∃ reached other, tree.lookup false path = .ok (reached, other) := by
  obtain ⟨⟨filled, short, leads⟩, there⟩ := Filesystem.lookup_eq_ok.mp looked
  obtain ⟨reached, leads, same | ⟨target, linked⟩⟩ := leads.unfollowed
  · exact ⟨goal, entry, Filesystem.lookup_eq_ok.mpr ⟨⟨filled, short, same ▸ leads⟩, there⟩⟩
  · obtain ⟨other, there, _⟩ := Option.map_eq_some_iff.mp linked
    exact ⟨reached, other, Filesystem.lookup_eq_ok.mpr ⟨⟨filled, short, leads⟩, there⟩⟩

theorem Peer.renumber_id (index : Nat) (peer : Peer) : peer.renumber (fun id => id) index = peer := by
  cases peer <;> simp [Peer.renumber]

theorem Client.renumber_id (index : Nat) (client : Client) :
    client.renumber (fun id => id) index = client := by
  obtain ⟨path, link⟩ := client
  cases link <;> simp [Client.renumber, Link.renumber, Peer.renumber_id]

theorem Peer.renumber_congr {number later : Nat → Nat} {index bound : Nat} {peer : Peer}
    (within : peer.within index bound) (agrees : ∀ id, id < bound → later id = number id) :
    peer.renumber later index = peer.renumber number index := by
  cases peer with
  | unattended => rfl
  | server here id =>
      by_cases same : here = index
      · simp [Peer.renumber, same, agrees id (within same)]
      · simp [Peer.renumber, same]

namespace Server

variable {σ : Type} {task : Nat} {origin server : Server σ}

theorem Fresh.whole [Outlet σ] (fresh : origin.Fresh) {moves : List Move}
    (run : Run nobody (origin.opened task) moves server) :
    ∃ whole, Run alone origin whole server := by
  have opens : Run alone origin _ (origin.opened task) :=
    (fresh.opens task).mono fun _ _ ⟨same, _, idle, unread⟩ => ⟨same ▸ rfl, idle, unread⟩
  exact ⟨_, opens.trans (run.mono fun _ _ nobody => nobody.elim)⟩

theorem Fresh.solo [Outlet σ] (fresh : origin.Fresh) {moves : List Move}
    (run : Run nobody (origin.opened task) moves server) : server.Solo := by
  obtain ⟨whole, served⟩ := fresh.whole run
  exact ⟨origin, whole, fresh, served⟩

end Server

namespace Session

variable {σ : Type} [Outlet σ] {alike : Option σ → Option σ → Prop} {number : Nat → Nat}
  {probes : List Nat} {index task : Nat} {session other : Session σ} {origin : Server σ}

omit [Outlet σ] in
theorem Knows.renumber {bound : Nat} {later : Nat → Nat} (knows : session.Knows index bound)
    (agrees : ∀ id, id < bound → later id = number id) :
    (session.clients.map fun entry => (entry.1, entry.2.renumber later index)) =
        (session.clients.map fun entry => (entry.1, entry.2.renumber number index)) ∧
      (session.wires.map fun entry => (entry.1, Wire.renumber later index entry.2)) =
        session.wires.map fun entry => (entry.1, Wire.renumber number index entry.2) := by
  constructor
  · refine List.map_congr_left fun entry member => Prod.ext rfl ?_
    have within := knows.1 entry member
    obtain ⟨name, path, link⟩ := entry
    cases link with
    | none => rfl
    | some link =>
        simp [Client.renumber, Link.renumber, Peer.renumber_congr (within link rfl) agrees]
  · refine List.map_congr_left fun entry member => Prod.ext rfl ?_
    simp [Wire.renumber, Peer.renumber_congr (knows.2 entry member) agrees]

theorem Mirrors.probe (mirrors : Mirrors alike number probes index session other)
    (tended : session.Has index Server.Tended) (lasting : Server.Lasting alike) :
    ∃ number probes, Mirrors alike number probes index session (other.probe (.server index)) := by
  obtain ⟨server, later, found, there, twins, knows⟩ := mirrors.watched
  obtain ⟨watched, again, tended⟩ := tended
  obtain rfl : server = watched := Option.some.inj (found.symm.trans again)
  have passed := twins.mirrors.probe tended twins.second.settled.calm lasting other.now
  have whole : (Server.Operation.arrive Server.probe).isWhole := ⟨rfl, rfl⟩
  obtain ⟨⟨_, run⟩, settled⟩ := twins.second.operate other.now whole
  have second := (twins.second.after run settled).reported
  obtain ⟨tree, now, modeFailure, clients, wires⟩ := other.frame_onServer index fun server =>
    server.arrive other.now Server.probe
  obtain ⟨sameClients, sameWires⟩ := @Knows.renumber _ number _ _ _
    (Server.skip number server.nextId) knows fun id earlier => Server.skip_before earlier
  refine ⟨Server.skip number server.nextId, later.nextId :: probes, tree.trans mirrors.tree,
    now.trans mirrors.now, modeFailure.trans mirrors.modeFailure,
    (length_onServer ..).trans mirrors.count, fun here apart => ?_,
    (clients.trans mirrors.clients).trans sameClients.symm,
    (wires.trans mirrors.wires).trans sameWires.symm,
    server, (later.arrive other.now Server.probe).reported, found, ?_,
    ⟨{ passed with }, twins.solo, twins.first, second⟩, knows⟩
  · exact (server?_onServer ..).trans ((if_neg (Ne.symm apart)).trans (mirrors.beside here apart))
  · refine (server?_onServer ..).trans ((if_pos rfl).trans ?_)
    rw [there]
    rfl

theorem Runs.tended (runs : session.Runs index Server.nobody (origin.opened task))
    (fresh : origin.Fresh) : session.Has index Server.Tended := by
  refine Has.mono runs fun server ⟨⟨moves, run⟩, settled⟩ => ?_
  obtain ⟨_, _, present⟩ := fresh.served run
  refine ⟨fresh.solo run, settled, fun running => ?_⟩
  have loop := (present running).loop
  refine ⟨by simp [Server.isListening, (present running).listening, running], ?_⟩
  by_contra idle
  rw [not_or, not_not, not_not] at idle
  simp [idle] at loop

inductive Turn where
  | own (task : Nat) (request : Step)
  | probe (request : Step)

def Turn.isOwn : Turn → Bool
  | .own _ _ => true
  | .probe _ => false

def play (session : Session σ) : List Turn → Session σ × List Result
  | [] => (session, [])
  | .own task request :: rest =>
      let (next, result) := session.perform task request
      let (last, results) := next.play rest
      (last, result :: results)
  | .probe request :: rest => (session.perform 0 request).1.play rest

/-- Looking whether somebody listens, where nobody but this server does, and listening at an
address where this server does. -/
def Step.isProbe (session : Session σ) (index : Nat) : Step → Prop
  | .isLive path => ∀ here, Address.dial session.tree path = .ok (.server here) → here = index
  | .listen other => session.Has other fun server =>
      Address.dial session.tree (Path.normalize server.path) = .ok (.server index)
  | _ => False

def Probing (session : Session σ) (index : Nat) : List Turn → Prop
  | [] => True
  | .own task request :: rest =>
      (∀ duty, request ≠ .start index duty) ∧
        (session.perform task request).1.Probing index rest
  | .probe request :: rest =>
      request.isProbe session index ∧ (session.perform 0 request).1.Probing index rest

theorem clearStale_dials {path : String} {listener : Address.Listener}
    (leads : Address.dial session.tree path = .ok listener) :
    ∃ failed error, session.clearStale path = (failed, some error) ∧
      (failed = session ∨ failed = session.probe listener) := by
  simp only [clearStale, leads]
  by_cases nul : Path.hasNul path = true
  · exact ⟨session, _, by rw [if_pos nul], .inl rfl⟩
  · have clean : Path.hasNul path = false := by simpa using nul
    obtain ⟨node, there⟩ : ∃ node, session.tree.nodeAt path = .ok node := by
      simp only [Address.dial, Address.uptoNul_of_clean clean, Filesystem.target] at leads
      cases looked : session.tree.lookup true path with
      | error number =>
          simp only [looked, Except.map] at leads
          split at leads
          · cases leads
          · split at leads
            · cases leads
            · split at leads <;> cases leads
      | ok found =>
          obtain ⟨reached, entry, there⟩ := Filesystem.lookup_unfollowed looked
          exact ⟨entry.node, by simp [Filesystem.nodeAt, there, Except.map]⟩
    rw [if_neg nul, there]
    dsimp only
    by_cases socket : node.isSocket
    · exact ⟨_, _, by rw [if_neg (by simp [socket])], .inr rfl⟩
    · exact ⟨session, _, by rw [if_pos (by simp [socket])], .inl rfl⟩

theorem listen_fails {here : Nat} {server : Server σ} (found : session.server? here = some server)
    {listener : Address.Listener}
    (leads : Address.dial session.tree (Path.normalize server.path) = .ok listener) :
    ∃ failed error, session.listen here = (failed, some error) ∧
      (failed = session ∨ failed = session.probe listener) := by
  obtain ⟨failed, error, fails, effect⟩ := clearStale_dials leads
  exact ⟨failed, error, listen_of_fails found fails, effect⟩

theorem isProbe_perform {request : Step} (probing : request.isProbe session index) :
    (session.perform 0 request).1 = session ∨
      (session.perform 0 request).1 = session.probe (.server index) := by
  cases request with
  | isLive path =>
      simp only [perform, isLive]
      cases leads : Address.dial session.tree path with
      | error cause => exact .inl rfl
      | ok listener =>
          cases listener with
          | unattended => exact .inl rfl
          | server here =>
              obtain rfl := probing here leads
              exact .inr rfl
  | listen here =>
      obtain ⟨server, found, leads⟩ := probing
      obtain ⟨failed, error, fails, effect⟩ := listen_fails found leads
      simpa only [perform, fails] using effect
  | _ => exact probing.elim

theorem Mirrors.refl (reflexive : ∀ outlet : Option σ, alike outlet outlet)
    (runs : session.Runs index Server.nobody (origin.opened task)) (fresh : origin.Fresh)
    (known : session.Has index fun server => session.Knows index server.nextId) :
    Mirrors alike (fun id => id) [] index session session := by
  obtain ⟨server, found, ⟨moves, run⟩, settled⟩ := runs
  obtain ⟨watched, again, knows⟩ := known
  obtain rfl : server = watched := Option.some.inj (found.symm.trans again)
  have solo := fresh.solo run
  have steady : server.Steady := ⟨solo.coherent, settled⟩
  refine ⟨rfl, rfl, rfl, rfl, fun _ _ => rfl, ?_, ?_, server, server, found, found,
    ⟨Server.Mirrors.self (reflexive _), solo, steady, steady⟩, knows⟩
  · simp only [Client.renumber_id, Prod.mk.eta, List.map_id']
  · simp only [Wire.renumber, Peer.renumber_id, List.map_id']

theorem Mirrors.play (fresh : origin.Fresh) (lasting : Server.Lasting alike) {turns : List Turn} :
    ∀ {number : Nat → Nat} {probes : List Nat} {session other : Session σ},
      Mirrors alike number probes index session other →
        session.Runs index Server.nobody (origin.opened task) → other.Probing index turns →
          ∃ number probes, Agree alike number probes index
            (session.play (turns.filter Turn.isOwn)) (other.play turns) := by
  have coherent : (origin.opened task).Coherent := (fresh.opens task).coherent fresh.coherent
  induction turns with
  | nil => exact fun mirrors _ _ => ⟨_, _, mirrors, rfl⟩
  | cons turn rest ih =>
      intro number probes session other mirrors runs probing
      cases turn with
      | own name request =>
          obtain ⟨still, probing⟩ := probing
          obtain ⟨performed, answers⟩ := mirrors.perform lasting name still
          have allowed : request.keepsTo Server.nobody session index name := by
            cases request with
            | start here duty => exact fun same _ _ => still duty (same ▸ rfl)
            | _ => trivial
          obtain ⟨number, probes, last, results⟩ :=
            ih performed (runs.perform coherent name allowed) probing
          exact ⟨number, probes, last, congrArg₂ List.cons answers results⟩
      | probe request =>
          obtain ⟨probes?, probing⟩ := probing
          rcases isProbe_perform probes? with same | same
          · rw [same] at probing
            obtain ⟨number, probes, agree⟩ := ih mirrors runs probing
            refine ⟨number, probes, ?_⟩
            rw [Session.play, same]
            exact agree
          · obtain ⟨number, probes, probed⟩ := mirrors.probe (runs.tended fresh) lasting
            rw [← same] at probed
            exact ih probed runs probing

/-- Probes are not seen: whenever somebody looks whether a server listens that one loop serves, or
tries to listen in its place, every step of the run is answered as it would be without that, and
leaves the store, the outlet, every client and everybody's connection as they would be. Only the
connections have other numbers, and the probes are connections of their own. -/
theorem probes_unseen (fresh : origin.Fresh)
    (runs : session.Runs index Server.nobody (origin.opened task))
    (known : session.Has index fun server => session.Knows index server.nextId)
    {turns : List Turn} (probing : session.Probing index turns) :
    (session.play turns).2 = (session.play (turns.filter Turn.isOwn)).2 ∧
      ∃ number probes, Parallel number index 0 (Server.Mirrors Eq number probes)
        (session.play (turns.filter Turn.isOwn)).1 (session.play turns).1 := by
  have mirrors := Mirrors.refl (fun _ : Option σ => rfl) runs fresh known
  obtain ⟨number, probes, last, answers⟩ :=
    Mirrors.play fresh Server.lasting_eq mirrors runs probing
  exact ⟨answers, number, probes, last.weaken fun _ _ twins => twins.mirrors⟩

/-- Two probes, one while a client holds the only slot and one after it has gone. -/
theorem probes_unseen_one_client :
    let tree := Filesystem.empty.add (Filesystem.workingPlace ++ ["s"]) (.socket (.served 0)) 448
    let server : Server Recorder := { path := "s" }
    let second : Server Recorder := { path := "./s" }
    let session : Session Recorder := { tree := tree, servers := [server.opened 9, second] }
    let turns : List Turn := [.own 1 (.connect "a" "s"), .probe (.isLive "s"),
      .own 2 (.sendValue "a" 0x50), .own 3 (.closeClient "a"), .probe (.listen 1),
      .own 4 (.connect "b" "s")]
    server.Fresh ∧ session.Runs 0 Server.nobody (server.opened 9) ∧
      (session.Has 0 fun server => session.Knows 0 server.nextId) ∧ session.Probing 0 turns ∧
      (session.play turns).2 = (session.play (turns.filter Turn.isOwn)).2 ∧
      ∃ number probes, Parallel number 0 0 (Server.Mirrors Eq number probes)
        (session.play (turns.filter Turn.isOwn)).1 (session.play turns).1 := by
  intro tree server second session turns
  have fresh : server.Fresh := rfl
  have runs : session.Runs 0 Server.nobody (server.opened 9) :=
    ⟨server.opened 9, rfl, ⟨[], Server.Run.still⟩, fresh.opened_settled⟩
  have known : session.Has 0 fun server => session.Knows 0 server.nextId :=
    ⟨server.opened 9, rfl, by simp [session], by simp [session]⟩
  have probing : session.Probing 0 turns := by
    have dials : Address.dial (session.perform 1 (.connect "a" "s")).1.tree "s" =
        .ok (.server 0) := by decide
    refine ⟨by simp, fun here leads => ?_, by simp, by simp, ⟨second, ?_, ?_⟩, by simp, trivial⟩
    · exact (Address.Listener.server.inj (Except.ok.inj (dials.symm.trans leads))).symm
    · simp only [session, server, second, tree]
      decide
    · simp only [session, server, second, tree]
      decide
  exact ⟨fresh, runs, known, probing, probes_unseen fresh runs known probing⟩

end Session
end SteeringChannel
